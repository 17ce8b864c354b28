import Kds.Core
import Kds.Meta
import Kds.Heap.Page
import Kds.Heap.Layout
import Kds.Heap.Table
import Kds.Pool
import Kds.Btree.Node
import Kds.Btree.Ops
import Kds.Btree.Search
import Kds.Btree.Insert
import Kds.Btree.Index
import Kds.Btree.Lookup
import Kds.Btree.Delete
import Kds.Btree.Rebalance
import Kds.Btree.Traverse
import Kds.Lib.Ring
import Kds.Wal.Log
import Kds.Wal.Stream
import Kds.Exec.BtreeInsert
import Kds.Heap.Rows
import Kds.Exec.UniqueKeys
import Kds.Lib.Fifo
import Kds.Alloc.Ring
import Kds.Buf.Calls
import Kds.Wal.Lsn
import Kds.Wal.Recover
import Kds.Exec.HeapInsert
import Kds.Exec.HeapKeys
import Kds.Exec.Handoff
import Kds.Buf.Flush
import Kds.Alloc.Reclaim
import Kds.Alloc.Crash
import Kds.Alloc.Live
import Kds.Lib.Returns
import Kds.Buf.Marks
import Kds.Exec.Marks
import Kds.Buf.Clean
import Kds.Proc.Balance
import Kds.Heap.History
import Kds.Codec
import Kds.Wal.Order
import Kds.Catalog.Relations
import Kds.Sql.Print
import Kds.Exec.Slices
import Kds.Buf.Pins
import Kds.Exec.Pins
import Kds.Heap.Contracts
import Kds.Wal.Append
import Kds.Lib.Halts
import Kds.Wal.FlushFails
import Kds.Wal.Robust
import Kds.Catalog.Partial
import Kds.Lib.Fuel
import Kds.Proc.Schedule
import Kds.Proc.Smp
import Kds.Lib.Ageing
import Kds.Proc.Ageing
import Kds.Exec.HeapRun
import Kds.Decimals
import Kds.Dshell.Row
import Kds.Btree.Positions
import Kds.Exec.Space
import Kds.Dshell.Scan
import Kds.Exec.Progress
import Kds.Sql.Literals
import Kds.Sql.LetterCase
import Kds.Ckpt.System
import Kds.Ckpt.Turns
import Kds.Ckpt.WalFirst
import Kds.Dshell.Commands
import Kds.Dshell.Tables
import Kds.Dshell.Database
import Kds.Dshell.Answers
import Kds.Dshell.Sessions
import Kds.Lib.Chain
import Kds.Dshell.Flushed
import Kds.Dshell.Crash
import Kds.Lib.Piles
import Kds.Proc.Settle
import Kds.Wal.Durable
