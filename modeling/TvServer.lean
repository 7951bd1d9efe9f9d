import TvServer.Event
import TvServer.TvCommon
import TvServer.Foundations.Buffer
import TvServer.Foundations.CText
import TvServer.Foundations.Footprint
import TvServer.Foundations.HexDigits
import TvServer.Foundations.Hidden
import TvServer.Foundations.Journal
import TvServer.Foundations.Ledger
import TvServer.Foundations.Lines
import TvServer.Foundations.Links
import TvServer.Foundations.LockOrder
import TvServer.Foundations.Loop
import TvServer.Foundations.Machine
import TvServer.Foundations.Masks
import TvServer.Foundations.Owners
import TvServer.Foundations.Potential
import TvServer.Foundations.Restore
import TvServer.Foundations.Search
import TvServer.Foundations.Sections
import TvServer.Foundations.Sensor
import TvServer.Foundations.SlotGaps
import TvServer.Foundations.SlotMap
import TvServer.Foundations.Stream
import TvServer.Foundations.Threads
import TvServer.Foundations.Unwinding
import TvServer.Foundations.Words
import TvServer.Config.IniFile
import TvServer.Config.Lists
import TvServer.Config.Items
import TvServer.Config.Reload
import TvServer.Config.Searches
import TvServer.Config.Resave
import TvServer.Config.Exact
import TvServer.Config.Writes
import TvServer.Config.Durable
import TvServer.Config.Nodes
import TvServer.Config.Integers
import TvServer.Config.LineBounds
import TvServer.Config.Trim
import TvServer.Config.Manager
import TvServer.Config.Interrupted
import TvServer.Config.Restarts
import TvServer.Tv.Kernel
import TvServer.Tv.Devices
import TvServer.Tv.CTv
import TvServer.Tv.Footprint
import TvServer.Tv.Signal
import TvServer.Tv.Reports
import TvServer.Tv.Decoder
import TvServer.Tv.Snow
import TvServer.Tv.Edid
import TvServer.Tv.EdidImage
import TvServer.Tv.Invariants
import TvServer.Tv.Session
import TvServer.Tv.DecoderProtocol
import TvServer.Tv.QuietEvents
import TvServer.Tv.ScreenMode
import TvServer.Tv.EdidVersions
import TvServer.Tv.EdidLoad
import TvServer.Tv.InitialSource
import TvServer.Tv.AudioPatch
import TvServer.Tv.Events
import TvServer.Tv.PollDetect
import TvServer.Tv.FalsePlugs
import TvServer.Tv.AvinDetect
import TvServer.Tv.PortMap
import TvServer.Tv.Queries
import TvServer.Tv.PortConfig
import TvServer.Tv.Picture
import TvServer.Tv.CecPortMap
import TvServer.Tv.Resets
import TvServer.Service.Callbacks
import TvServer.Service.Commands
import TvServer.Service.DataCommands
import TvServer.Service.DataBounds
import TvServer.Service.Parser
import TvServer.Service.TableAccess
import TvServer.Service.Recovery
import TvServer.Service.Interleaving
import TvServer.Client.Methods
import TvServer.Client.Events
import TvServer.Client.Observers
import TvServer.Client.EdidData
import TvServer.Client.EdidReadback
import TvServer.Client.Process
import TvServer.Client.Startup
import TvServer.Client.Lifetimes
import TvServer.Client.CommandBuffers
import TvServer.System.Notification
import TvServer.System.Threads
import TvServer.System.Interleavings
import TvServer.System.HotPlug
import TvServer.System.SignalView
import TvServer.System.Survival
import TvServer.Utils.SysfsText
import TvServer.Utils.FileCopy
import TvServer.Utils.SerialRead
import TvServer.Utils.Descriptors
import TvServer.Utils.SerialSettings
