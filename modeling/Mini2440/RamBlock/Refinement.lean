import Mini2440.RamBlock.Driver

/-!
# The RAM disk is a byte array

Serving a request at once: a read gives the bytes of its range, a write replaces them.
The driver serves the segments of a request one after the other, which is the same, and
the requests in queue order, until none is left.
-/

namespace Mini2440.RamBlock

open Splice

/-! ## Whole requests -/

/-- A transfer at byte `start` of a byte array: the array afterwards, and what the buffer
that held `data` holds. -/
def serve (dir : Direction) (bytes : List UInt8) (start : Nat) (data : List UInt8) :
    List UInt8 × List UInt8 :=
  match dir with
  | .read => (bytes, slice bytes start data.length)
  | .write => (splice bytes start data, data)

/-- The contents of the buffers of a request, as one. -/
def Request.data (request : Request) : List UInt8 := (request.segments.map (·.buffer)).flatten

/-- The whole requests one after another, with what the buffers of each hold at its end. -/
def serveAll (bytes : List UInt8) : List Request → List UInt8 × List (List UInt8)
  | [] => (bytes, [])
  | request :: rest =>
      let served := serve request.dir bytes (request.pos * 512) request.data
      let remaining := serveAll served.1 rest
      (remaining.1, served.2 :: remaining.2)

theorem Request.length_data (request : Request) :
    request.data.length =
      512 * (request.first.sectors + (request.more.map (·.sectors)).sum) := by
  have lengths (segments : List Segment) :
      (segments.map (·.buffer)).flatten.length = 512 * (segments.map (·.sectors)).sum := by
    induction segments with
    | nil => rfl
    | cons segment rest ih =>
        simp only [List.map_cons, List.flatten_cons, List.length_append, List.sum_cons, ih,
          segment.whole, Nat.mul_add]
  exact lengths request.segments

/-- What is written is read back, in whatever segments it goes and comes. -/
theorem serveAll_readBack (disk : Disk) {write read : Request} (writes : write.dir = .write)
    (reads : read.dir = .read) (pos : read.pos = write.pos)
    (sectors : read.first.sectors + (read.more.map (·.sectors)).sum =
      write.first.sectors + (write.more.map (·.sectors)).sum) :
    (serveAll disk.bytes [write, read]).2 = [write.data, write.data] := by
  have length : read.data.length = write.data.length := by
    rw [read.length_data, write.length_data, sectors]
  have inside : write.pos * 512 + write.data.length ≤ disk.bytes.length := by
    have inside := write.inside
    rw [write.length_data, disk.size]
    unfold capacity ramblockSize at *
    omega
  simp only [serveAll, serve, writes, reads, pos, length, slice_splice inside]

/-- Two sectors in two segments. -/
def writeTwo : Request where
  dir := .write
  pos := 4
  first := ⟨List.replicate 512 0x55, 1, Nat.one_pos, List.length_replicate⟩
  more := [⟨List.replicate 512 0xaa, 1, Nat.one_pos, List.length_replicate⟩]
  inside := by decide

/-- The same two sectors in one segment. -/
def readTwo : Request where
  dir := .read
  pos := 4
  first := ⟨List.replicate 1024 0, 2, Nat.two_pos, List.length_replicate⟩
  more := []
  inside := by decide

example : (serveAll Disk.zeroed.bytes [writeTwo, readTwo]).2 = [writeTwo.data, writeTwo.data] :=
  serveAll_readBack Disk.zeroed rfl rfl rfl rfl

/-- A transfer may be served in two parts. -/
theorem serve_append {dir : Direction} {bytes : List UInt8} {start : Nat}
    {first second : List UInt8} (inside : start + first.length ≤ bytes.length) :
    serve dir bytes start (first ++ second) =
      ((serve dir (serve dir bytes start first).1 (start + first.length) second).1,
        (serve dir bytes start first).2 ++
          (serve dir (serve dir bytes start first).1 (start + first.length) second).2) := by
  cases dir with
  | read => simp only [serve, List.length_append, slice_add]
  | write => simp only [serve, splice_append inside]

/-! ## The loop body -/

namespace Loop

/-- The body on a segment inside the disk: the segment is served. -/
theorem body_eq (state : Loop) (request : Request) (pos : Nat) (done : List (List UInt8))
    (current : List UInt8) (rest : List Segment) {sectors : Nat}
    (whole : current.length = 512 * sectors) (inside : pos + sectors ≤ capacity) :
    ∃ (disk : Disk) (served : List UInt8),
      state.body ⟨request, pos, done, current, rest⟩ =
        .ok ({ state with disk := disk }.wrapUp ⟨request, pos, done, served, rest⟩) ∧
      (disk.bytes, served) = serve request.dir state.disk.bytes (pos * 512) current ∧
      served.length = current.length := by
  have bound : pos * 512 + current.length ≤ ramblockSize := by
    unfold capacity ramblockSize at *
    omega
  have offset : pos * 512 % 2 ^ 32 = pos * 512 := by
    apply Nat.mod_eq_of_lt
    unfold ramblockSize at bound
    omega
  cases dir : request.dir with
  | read =>
      refine ⟨state.disk, slice state.disk.bytes (pos * 512) current.length, ?_, rfl, ?_⟩
      · simp only [body, dir, if_true, offset, Disk.copyFrom, bound, pure_bind]
        rfl
      · exact length_slice (state.disk.size ▸ bound)
  | write =>
      refine ⟨⟨splice state.disk.bytes (pos * 512) current, ?_⟩, current, ?_, rfl, rfl⟩
      · exact (length_splice (state.disk.size ▸ bound)).trans state.disk.size
      · simp only [body, dir, reduceCtorEq, if_false, offset, Disk.copyTo, bound, dite_true,
          pure_bind]
        rfl

/-! ## A request, segment by segment -/

theorem wrapUp_nil (state : Loop) (request : Request) (pos : Nat) (done : List (List UInt8))
    (current : List UInt8) :
    state.wrapUp ⟨request, pos, done, current, []⟩ =
      Loop.fetch ⟨state.disk, none, ⟨state.queue.waiting,
        state.queue.completed ++ [⟨request, done ++ [current]⟩]⟩, state.klog⟩ := rfl

theorem wrapUp_cons (state : Loop) (request : Request) (pos : Nat) (done : List (List UInt8))
    (current : List UInt8) (next : Segment) (rest : List Segment) :
    state.wrapUp ⟨request, pos, done, current, next :: rest⟩ =
      ⟨state.disk,
        some ⟨request, pos + current.length / 512, done ++ [current], next.buffer, rest⟩,
        state.queue, state.klog ++ ["__blk_end_request_cur error !\n"]⟩ := rfl

theorem run_succ {state next : Loop} {req : Active} (fetched : state.req = some req)
    (body : state.body req = .ok next) (fuel : Nat) : run (fuel + 1) state = run fuel next := by
  simp only [run, fetched, body]

/-- From the segment at hand to the end of its request: one test of the loop for each
segment, and what is left of the request has been served as a whole. -/
theorem run_request (state : Loop) (request : Request) (pos : Nat) (done : List (List UInt8))
    (current : List UInt8) (rest : List Segment) {sectors : Nat}
    (fetched : state.req = some ⟨request, pos, done, current, rest⟩)
    (whole : current.length = 512 * sectors)
    (inside : pos + (sectors + (rest.map (·.sectors)).sum) ≤ capacity) :
    ∃ (disk : Disk) (buffers : List (List UInt8)) (klog : List String),
      (∀ fuel, run (fuel + (rest.length + 1)) state =
        run fuel (Loop.fetch ⟨disk, none, ⟨state.queue.waiting,
          state.queue.completed ++ [⟨request, done ++ buffers⟩]⟩, klog⟩)) ∧
      buffers.map List.length = current.length :: rest.map (·.buffer.length) ∧
      (disk.bytes, buffers.flatten) = serve request.dir state.disk.bytes (pos * 512)
        (current ++ (rest.map (·.buffer)).flatten) := by
  induction rest generalizing state pos done current sectors with
  | nil =>
      obtain ⟨disk, served, body, served_eq, length⟩ :=
        state.body_eq request pos done current [] whole (by simpa using inside)
      rw [wrapUp_nil] at body
      refine ⟨disk, [served], state.klog, run_succ fetched body, ?_, ?_⟩
      · simp [length]
      · simpa using served_eq
  | cons next rest ih =>
      rw [List.map_cons, List.sum_cons] at inside
      obtain ⟨disk, served, body, served_eq, length⟩ :=
        state.body_eq request pos done current (next :: rest) whole (by omega)
      have moved : served.length / 512 = sectors := by
        rw [length, whole, Nat.mul_div_cancel_left _ (by decide)]
      rw [wrapUp_cons, moved] at body
      obtain ⟨disk', buffers, klog, ran, lengths, rest_eq⟩ :=
        ih ⟨disk, some ⟨request, pos + sectors, done ++ [served], next.buffer, rest⟩,
            state.queue, state.klog ++ ["__blk_end_request_cur error !\n"]⟩
          (pos + sectors) (done ++ [served]) next.buffer rfl next.whole (by omega)
      refine ⟨disk', served :: buffers, klog, ?_, ?_, ?_⟩
      · intro fuel
        rw [List.length_cons, ← Nat.add_assoc, run_succ fetched body, ran fuel]
        simp only [List.append_assoc, List.singleton_append]
      · rw [List.map_cons, lengths, length]
        rfl
      · have bound : pos * 512 + current.length ≤ state.disk.bytes.length := by
          rw [state.disk.size, whole]
          unfold capacity ramblockSize at *
          omega
        have start : pos * 512 + current.length = (pos + sectors) * 512 := by
          rw [whole]
          omega
        simp only at rest_eq
        rw [List.map_cons, List.flatten_cons, serve_append bound, ← served_eq, start,
          List.flatten_cons, ← rest_eq]

/-- The loop serves the waiting requests in order and completes each of them. -/
theorem run_queue (disk : Disk) (waiting : List Request) (completed : List Completed)
    (klog : List String) :
    ∃ final : Loop,
      (∀ fuel, run (fuel + ((waiting.map (·.segments.length)).sum + 1))
        (Loop.fetch ⟨disk, none, ⟨waiting, completed⟩, klog⟩) = some (.ok final)) ∧
      final.queue.waiting = [] ∧
      ∃ served, final.queue.completed = completed ++ served ∧
        served.map (·.request) = waiting ∧
        (∀ one ∈ served,
          one.buffers.map List.length = one.request.segments.map (·.buffer.length)) ∧
        (final.disk.bytes, served.map (·.buffers.flatten)) = serveAll disk.bytes waiting := by
  induction waiting generalizing disk completed klog with
  | nil =>
      refine ⟨⟨disk, none, ⟨[], completed⟩, klog⟩, fun fuel => rfl, rfl, [], ?_, rfl, ?_, rfl⟩
      · simp
      · simp
  | cons request waiting ih =>
      obtain ⟨disk', buffers, klog', ran, lengths, served_eq⟩ :=
        run_request (Loop.fetch ⟨disk, none, ⟨request :: waiting, completed⟩, klog⟩) request
          request.pos [] request.first.buffer request.more rfl request.first.whole request.inside
      obtain ⟨final, ranAll, empty, served, completed_eq, requests, lengthsAll, served_all⟩ :=
        ih disk' (completed ++ [⟨request, buffers⟩]) klog'
      refine ⟨final, ?_, empty, ⟨request, buffers⟩ :: served, ?_, ?_, ?_, ?_⟩
      · intro fuel
        have enough : fuel + (((request :: waiting).map (·.segments.length)).sum + 1) =
            fuel + ((waiting.map (·.segments.length)).sum + 1) + (request.more.length + 1) := by
          simp only [List.map_cons, List.sum_cons, Request.segments, List.length_cons]
          omega
        rw [enough, ran]
        exact ranAll fuel
      · rw [completed_eq, List.append_assoc, List.singleton_append]
      · rw [List.map_cons, requests]
      · intro one member
        rcases List.mem_cons.mp member with rfl | later
        · exact lengths
        · exact lengthsAll one later
      · have first_eq : (disk'.bytes, buffers.flatten) =
            serve request.dir disk.bytes (request.pos * 512) request.data := served_eq
        rw [serveAll, ← first_eq, ← served_all]
        rfl

end Loop

/-- For every disk and every queue of requests, with any segmentation: enough tests of the
loop condition, one for each segment and one at the end, finish `do_ramblock_request`
without a copy outside the disk.  Every request has been completed, in queue order and with
its buffers of their size, and the disk and the buffers are those of the whole requests
applied to the byte array one after another. -/
theorem doRamblockRequest_refines (disk : Disk) (requests : List Request) :
    ∃ final : Loop,
      (∀ fuel, (requests.map (·.segments.length)).sum < fuel →
        doRamblockRequest fuel disk requests = some (.ok final)) ∧
      final.queue.waiting = [] ∧
      final.queue.completed.map (·.request) = requests ∧
      (∀ one ∈ final.queue.completed,
        one.buffers.map List.length = one.request.segments.map (·.buffer.length)) ∧
      (final.disk.bytes, final.queue.completed.map (·.buffers.flatten)) =
        serveAll disk.bytes requests := by
  obtain ⟨final, ran, empty, served, completed_eq, requests_eq, lengths, served_eq⟩ :=
    Loop.run_queue disk requests [] []
  rw [List.nil_append] at completed_eq
  subst completed_eq
  refine ⟨final, ?_, empty, requests_eq, lengths, served_eq⟩
  intro fuel enough
  obtain ⟨more, rfl⟩ := Nat.exists_eq_add_of_le' enough
  exact ran more

end Mini2440.RamBlock
