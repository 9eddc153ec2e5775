import Apue.Ipc.Popen.Exec
import Apue.FileDir.Ftw.Bounds
import Apue.Overview.Qsort
import Apue.Foundation.Decimal
import Apue.AdvancedIpc.UniqueConn.Delivery
import Apue.AdvancedIpc.Passing
import Apue.Daemon.Single
import Apue.Pseudo.PtymOpen
import Apue.Signal.Sleep2
import Apue.Signal.Sigsetjmp
import Apue.NetIpc.SendRecv
import Apue.NetIpc.Connless
import Apue.Ipc.Copro
import Apue.Ipc.Semaph
import Apue.NetIpc.OtherSrv
import Apue.ThreadControl.Thrfork
import Apue.Threads.Cond
import Apue.ThreadControl.Thrspec
import Apue.FileIo.Atomic
import Apue.FileIo.Dup2
import Apue.NetIpc.OobData
import Apue.ThreadControl.Thrsafe
import Apue.Ipc.Popen.Indexing
import Apue.ThreadControl.Thrsig
import Apue.Signal.Waitsig
import Apue.Overview.Copyfile
import Apue.Ipc.Fifo
import Apue.Ipc.Pager
import Apue.Ipc.Add2Filter
import Apue.AdvancedIo.Mmap
import Apue.ThreadControl.EnvSearch
import Apue.FileDir.Ftw.Counters
import Apue.Overview.Sortls
import Apue.Daemon.Daemonize
import Apue.AdvancedIo.Nonblock
import Apue.Termios.Canon
import Apue.Overview.Myshell
import Apue.Overview.ErrDoit
import Apue.AdvancedIpc.UniqueConn.SunPath
import Apue.Pseudo.BsdOpen
import Apue.NetIpc.ConnectRetry
import Apue.Signal.Sleep1
import Apue.AdvancedIo.Filelock
import Apue.Ipc.Msgqueue
import Apue.Termios.Mintime
import Apue.FileDir.Ftw.Restore
import Apue.Overview.QsortInt
import Apue.AdvancedIo.Lockabyte
import Apue.AdvancedIo.LockEOF
import Apue.AdvancedIo.ImplyIR
import Apue.Ipc.Filter
import Apue.AdvancedIo.Rdwrv
import Apue.Threads.Rwlock
import Apue.Process.PrExit
import Apue.Process.System
import Apue.Process.Waitpid
import Apue.Process.Usekill
import Apue.AdvancedIo.Mandlock
import Apue.Pseudo.BsdPtym
import Apue.FileIo.Sharing
import Apue.Threads.Mutex
import Apue.Process.Race
import Apue.Process.Fork
import Apue.Signal.Critical
import Apue.NetIpc.Initserver
