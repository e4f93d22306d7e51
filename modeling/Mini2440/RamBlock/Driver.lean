import Mini2440.Lib.Splice
import Mathlib.Algebra.GroupWithZero.Nat

/-!
# The RAM disk

The driver `13th-ramblock/ramblock.c`.  `do_ramblock_request` works through the request
queue segment by segment: it copies between the segment's buffer and the disk, and asks the
block layer to complete the segment, which either moves the same request on to its next
segment or ends it.  What the block layer does is part of the model: the requests it may
hand out, `blk_fetch_request` and `__blk_end_request_cur`.
-/

namespace Mini2440.RamBlock

open Splice

/-- `RAMBLOCK_SIZE`. -/
def ramblockSize : Nat := 1024 * 1024

/-- What `set_capacity` is told, in sectors. -/
def capacity : Nat := ramblockSize / 512

/-! ## Requests -/

/-- A segment of a request: its buffer, some whole sectors. -/
structure Segment where
  buffer : List UInt8
  sectors : Nat
  nonempty : 0 < sectors
  whole : buffer.length = 512 * sectors

/-- `rq_data_dir`. -/
inductive Direction where
  | read
  | write
  deriving DecidableEq, Repr

/-- A request as the block layer queues it, from sector `pos` on; there is a `first`
segment. -/
structure Request where
  dir : Direction
  pos : Nat
  first : Segment
  more : List Segment
  inside : pos + (first.sectors + (more.map (·.sectors)).sum) ≤ capacity

/-- The segments of a request, in order. -/
def Request.segments (request : Request) : List Segment := request.first :: request.more

/-- A request that the driver has fetched: `pos`, `current` (`req->buffer` with its
`blk_rq_cur_bytes`) and the segments after it move as segments are completed. -/
structure Active where
  request : Request
  pos : Nat
  done : List (List UInt8)
  current : List UInt8
  rest : List Segment

/-- A request that the block layer has completed, with what its buffers hold. -/
structure Completed where
  request : Request
  buffers : List (List UInt8)

/-- The request queue. -/
structure Queue where
  waiting : List Request
  completed : List Completed

/-- `blk_fetch_request`: the next request in queue order, `NULL` when there is none. -/
def blkFetchRequest (queue : Queue) : Option Active × Queue :=
  match queue.waiting with
  | [] => (none, queue)
  | request :: waiting =>
      (some ⟨request, request.pos, [], request.first.buffer, request.more⟩,
        { queue with waiting := waiting })

/-- `__blk_end_request_cur(req, 0)`: the current segment is completed.  With segments left
the request moves on and the result is true, otherwise the request is completed. -/
def blkEndRequestCur (req : Active) (queue : Queue) : Bool × Active × Queue :=
  let req := { req with
    pos := req.pos + req.current.length / 512
    done := req.done ++ [req.current] }
  match req.rest with
  | [] => (false, req, { queue with completed := queue.completed ++ [⟨req.request, req.done⟩] })
  | next :: rest => (true, { req with current := next.buffer, rest := rest }, queue)

/-! ## The disk -/

/-- `p_ramblock_buf`. -/
structure Disk where
  bytes : List UInt8
  size : bytes.length = ramblockSize

/-- `kzalloc(RAMBLOCK_SIZE, GFP_KERNEL)`. -/
def Disk.zeroed : Disk := ⟨List.replicate ramblockSize 0, List.length_replicate⟩

/-- A `memcpy` outside the buffer of the disk. -/
inductive Fault where
  | memcpy (offset len : Nat)
  deriving DecidableEq, Repr

namespace Disk

/-- `memcpy(req->buffer, p_ramblock_buf+offset, len)`: what is copied. -/
def copyFrom (disk : Disk) (offset len : Nat) : Except Fault (List UInt8) :=
  if offset + len ≤ ramblockSize then pure (slice disk.bytes offset len)
  else throw (.memcpy offset len)

/-- `memcpy(p_ramblock_buf+offset, req->buffer, len)`. -/
def copyTo (disk : Disk) (offset : Nat) (buffer : List UInt8) : Except Fault Disk :=
  if inside : offset + buffer.length ≤ ramblockSize then
    pure ⟨splice disk.bytes offset buffer,
      (length_splice (disk.size ▸ inside)).trans disk.size⟩
  else throw (.memcpy offset buffer.length)

end Disk

/-! ## The driver -/

/-- The variables of `do_ramblock_request`, the disk, the queue and the kernel log. -/
structure Loop where
  disk : Disk
  req : Option Active
  queue : Queue
  klog : List String

namespace Loop

/-- `req = blk_fetch_request(q)`. -/
def fetch (state : Loop) : Loop :=
  { state with req := (blkFetchRequest state.queue).1, queue := (blkFetchRequest state.queue).2 }

/-- A line of the kernel log. -/
def printk (state : Loop) (text : String) : Loop := { state with klog := state.klog ++ [text] }

/-- The end of the loop body: `__blk_end_request_cur` and what follows it. -/
def wrapUp (state : Loop) (req : Active) : Loop :=
  let (more, req, queue) := blkEndRequestCur req state.queue
  let state := { state with req := some req, queue := queue }
  if !more then state.fetch
  else state.printk "__blk_end_request_cur error !\n"

/-- The loop body; an `unsigned long` has 32 bits. -/
def body (state : Loop) (req : Active) : Except Fault Loop := do
  let offset := req.pos * 512 % 2 ^ 32
  let len := req.current.length
  if req.request.dir = .read then
    let buffer ← state.disk.copyFrom offset len
    return state.wrapUp { req with current := buffer }
  else
    let disk ← state.disk.copyTo offset req.current
    return { state with disk := disk }.wrapUp req

/-- `while (req)`, for at most `fuel` tests of the condition. -/
def run : Nat → Loop → Option (Except Fault Loop)
  | 0, _ => none
  | fuel + 1, state =>
      match state.req with
      | none => some (.ok state)
      | some req =>
          match state.body req with
          | .ok state => run fuel state
          | .error fault => some (.error fault)

end Loop

/-- `do_ramblock_request` on a queue of requests. -/
def doRamblockRequest (fuel : Nat) (disk : Disk) (requests : List Request) :
    Option (Except Fault Loop) :=
  Loop.run fuel (Loop.fetch ⟨disk, none, ⟨requests, []⟩, []⟩)

end Mini2440.RamBlock
