import Tolunnet.Task.Context
import Tolunnet.Task.Exec
import Tolunnet.Task.Lwip
import Tolunnet.Task.Select
import Tolunnet.Task.SlotTable
import Tolunnet.Task.Recv
import Tolunnet.Task.Callbacks
import Tolunnet.Task.Tcp
import Tolunnet.Task.Dgram
import Tolunnet.Task.Sockopt
import Tolunnet.Task.Netdb
import Tolunnet.Task.Socket
import Tolunnet.Task.Status
import Tolunnet.Task.Daemon
import Tolunnet.Abstract.Act
import Tolunnet.Abstract.Books
import Tolunnet.Abstract.Sends
import Tolunnet.Abstract.Sound
import Tolunnet.Refine.Basic
import Tolunnet.Refine.Callbacks
import Tolunnet.Refine.Events
import Tolunnet.Common.ConfigText
import Tolunnet.Common.PrefsFile
import Tolunnet.Config.Values
import Tolunnet.Config.Crash
import Tolunnet.Config.Diff
import Tolunnet.Config.Load
import Tolunnet.Config.Merge
import Tolunnet.Config.Save
import Tolunnet.Config.Reconfig
import Tolunnet.Desk.Events
import Tolunnet.Desk.HandOver
import Tolunnet.Desk.Memberships
import Tolunnet.Desk.Lookups
import Tolunnet.Shelf.Steps
import Tolunnet.Calls.Receive
import Tolunnet.Calls.Recvmsg
import Tolunnet.Calls.Peek
import Tolunnet.Calls.Ready
import Tolunnet.Calls.Select
import Tolunnet.Client.Events
import Tolunnet.Client.Callback
import Tolunnet.Route.Hooks
import Tolunnet.Http.Chunked
import Tolunnet.Http.Lenient
import Tolunnet.Http.Headers
import Tolunnet.Inet.Aton
import Tolunnet.Inet.Numbers
import Tolunnet.Calls.Cancel
import Tolunnet.Calls.Shutdown
import Tolunnet.Calls.Timeouts
import Tolunnet.Calls.Accept
import Tolunnet.Calls.Senders
import Tolunnet.Sana2.Link
import Tolunnet.Setup.BootKeeps
import Tolunnet.Setup.Reversible
import Tolunnet.Setup.Rewrite
import Tolunnet.Setup.Original
import Tolunnet.Options.InForce
import Tolunnet.Queue.Steps
import Tolunnet.Queue.Reuse
import Tolunnet.Http.Redirect
import Tolunnet.Cmds.Telnet
import Tolunnet.Cmds.Pasv
import Tolunnet.Cmds.DnsNames
import Tolunnet.Setup.WordWrap
import Tolunnet.Desk.Waiters
import Tolunnet.Usergroup.Opens
import Tolunnet.Cmds.Transfers
import Tolunnet.Config.Fallback
import Tolunnet.Usergroup.Hashes
import Tolunnet.Inet.Readers
import Tolunnet.Log.Formatted
import Tolunnet.Log.Expanded
import Tolunnet.Client.Resizing
import Tolunnet.Client.Reports
import Tolunnet.Setup.StackScan
import Tolunnet.Cmds.Sntp
import Tolunnet.Config.Applied
import Tolunnet.Calls.Delivery
import Tolunnet.Refine.Kinds
import Tolunnet.Refine.Counts
import Tolunnet.Refine.Selectors
import Tolunnet.Refine.Waits
import Tolunnet.Refine.Histories
import Tolunnet.Refine.Sends
import Tolunnet.Refine.Wakeups
import Tolunnet.Client.Session
