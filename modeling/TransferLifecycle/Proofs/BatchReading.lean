import TransferLifecycle.Machine.Host
import TransferLifecycle.Proofs.BatchParts
import TransferLifecycle.Replay

set_option autoImplicit false

/- Batches are cut from the records of a log, whatever lies between its records. So a log that is
read to its end in batches of one size comes in as few batches as there can be, and a replay by
batches applies these. -/
namespace TransferLifecycle

namespace CommandLog

/-- A batch of this size takes something, and the machine has room for it. -/
def Fits (machine : Machine) (size : Nat) : Prop :=
  0 < size ∧ machine.reserve size recordSize = .ok ()

/-- Reads one batch of each size, one after the other. -/
def readBatches (machine : Machine) : List Nat → List (Except ReadError Record) →
    Except Shortage (List (List Record) × List (Except ReadError Record))
  | [], items => .ok ([], items)
  | size :: sizes, items =>
    match readBatch machine size items with
    | .error s => .error s
    | .ok (batch, rest) =>
      (readBatches machine sizes rest).map fun read => (batch :: read.1, read.2)

section Reading

variable {machine : Machine} {size : Nat} {sizes : List Nat}
  {items mid rest : List (Except ReadError Record)} {batch : List Record}
  {batches : List (List Record)}

theorem readBatch_of_fits (fits : Fits machine size) (items : List (Except ReadError Record)) :
    ∃ rest, readBatch machine size items = .ok ((recordsOf items).take size, rest) ∧
      recordsOf rest = (recordsOf items).drop size := by
  refine ⟨(takeBatch [] size items).2, ?_, takeBatch_rest [] size items⟩
  have batch := takeBatch_batch [] size items
  rw [List.reverse_nil, List.nil_append] at batch
  rw [readBatch, fits.2, ← batch]

theorem readBatches_cons (first : readBatch machine size items = .ok (batch, mid))
    (later : readBatches machine sizes mid = .ok (batches, rest)) :
    readBatches machine (size :: sizes) items = .ok (batch :: batches, rest) := by
  simp only [readBatches, first, later, Except.map]

theorem readBatches_append_singleton (first : readBatches machine sizes items = .ok (batches, mid))
    (last : readBatch machine size mid = .ok (batch, rest)) :
    readBatches machine (sizes ++ [size]) items = .ok (batches ++ [batch], rest) := by
  induction sizes generalizing items batches with
  | nil =>
    obtain ⟨rfl, rfl⟩ := Prod.mk.inj (Except.ok.inj first)
    exact readBatches_cons last rfl
  | cons next sizes ih =>
    rw [readBatches] at first
    cases read : readBatch machine next items with
    | error s => simp [read] at first
    | ok taken =>
      obtain ⟨head, left⟩ := taken
      cases tail : readBatches machine sizes left with
      | error s => simp [read, tail, Except.map] at first
      | ok more =>
        simp only [read, tail, Except.map, Except.ok.injEq, Prod.mk.injEq] at first
        obtain ⟨rfl, rfl⟩ := first
        exact readBatches_cons read (ih tail)

/-- What has been read and what is left are all records, in their order. -/
theorem exists_readBatches (fit : ∀ size ∈ sizes, Fits machine size)
    (items : List (Except ReadError Record)) :
    ∃ batches rest, readBatches machine sizes items = .ok (batches, rest) ∧
      batches.flatten ++ recordsOf rest = recordsOf items := by
  induction sizes generalizing items with
  | nil => exact ⟨[], items, rfl, rfl⟩
  | cons size sizes ih =>
    obtain ⟨mid, first, behind⟩ := readBatch_of_fits (fit size List.mem_cons_self) items
    obtain ⟨batches, rest, later, whole⟩ :=
      ih (fun next member => fit next (List.mem_cons_of_mem _ member)) mid
    refine ⟨_ :: batches, rest, readBatches_cons first later, ?_⟩
    rw [List.flatten_cons, List.append_assoc, whole, behind, List.take_append_drop]

end Reading

end CommandLog

namespace Engine

/-- Applies batch after batch, up to the first interruption. -/
def runEach (e : Engine) (s : Session) : List (List Record) → Except ReplayStop Unit × Session
  | [] => (.ok (), s)
  | batch :: rest =>
    match e.runBatch s batch with
    | (.error i, after) => (.error i.stop, after)
    | (.ok _, after) => e.runEach after rest

variable {machine : Machine} {e : Engine} {s : Session} {size : Nat} {batch : List Record}
  {batches : List (List Record)} {items rest : List (Except CommandLog.ReadError Record)}

theorem runBatches_of_empty (read : CommandLog.readBatch machine size items = .ok ([], rest)) :
    e.runBatches machine size s items = e.runEach s [] := by
  rw [runBatches]
  split
  next shortage failed => simp [read] at failed
  next => rfl
  next record more left taken => simp [read] at taken

theorem runBatches_of_batch (read : CommandLog.readBatch machine size items = .ok (batch, rest))
    (nonempty : batch ≠ [])
    (later : ∀ after, e.runBatches machine size after rest = e.runEach after batches) :
    e.runBatches machine size s items = e.runEach s (batch :: batches) := by
  rw [runBatches]
  split
  next shortage failed => simp [read] at failed
  next left taken =>
    rw [read] at taken
    exact absurd (congrArg Prod.fst (Except.ok.inj taken)) nonempty
  next record more left taken =>
    obtain ⟨rfl, rfl⟩ := Prod.mk.inj (Except.ok.inj (read.symm.trans taken))
    rw [runEach]
    rcases e.runBatch s (record :: more) with ⟨i | tally, after⟩
    · rfl
    · exact later after

end Engine

namespace CommandLog

/-- The items are read to their end in batches of one size. The batches hold all records, as few
batches as there can be, and none of them is empty but the one that is read behind them; a replay
applies these batches. -/
structure ReadThrough (machine : Machine) (size : Nat)
    (items : List (Except ReadError Record)) (batches : List (List Record)) : Prop where
  nonempty : ∀ batch ∈ batches, batch ≠ []
  whole : batches.flatten = recordsOf items
  count : batches.length = ((recordsOf items).length + size - 1) / size
  read : ∃ rest last,
    readBatches machine (List.replicate batches.length size) items = .ok (batches, rest) ∧
    readBatch machine size rest = .ok ([], last)
  applied : ∀ (e : Engine) (s : Session), e.runBatches machine size s items = e.runEach s batches

section ReadThrough

variable {machine : Machine} {size : Nat} {items rest : List (Except ReadError Record)}

/-- One batch less is needed once a batch has been read, whether it was full or the last. -/
theorem ceil_sub {n : Nat} (positive : 0 < size) (present : 0 < n) :
    (n - size + size - 1) / size + 1 = (n + size - 1) / size := by
  by_cases more : size ≤ n
  · have full : n + size - 1 = n - size + size - 1 + size := by omega
    rw [full, Nat.add_div_right _ positive]
  · have last : n + size - 1 = n - 1 + size := by omega
    have none : n - size + size - 1 < size := by omega
    have rest : n - 1 < size := by omega
    rw [last, Nat.add_div_right _ positive, Nat.div_eq_of_lt none, Nat.div_eq_of_lt rest]

theorem ReadThrough.nil (fits : Fits machine size) (none : recordsOf items = []) :
    ReadThrough machine size items [] := by
  obtain ⟨last, read, -⟩ := readBatch_of_fits fits items
  rw [none, List.take_nil] at read
  have positive := fits.1
  have count : ([] : List (List Record)).length = ((recordsOf items).length + size - 1) / size := by
    simp only [none, List.length_nil]
    rw [Nat.div_eq_of_lt (by omega)]
  exact ⟨by simp, none.symm, count, ⟨items, last, rfl, read⟩,
    fun _ _ => Engine.runBatches_of_empty read⟩

theorem ReadThrough.cons {batches : List (List Record)} (fits : Fits machine size)
    (present : recordsOf items ≠ [])
    (first : readBatch machine size items = .ok ((recordsOf items).take size, rest))
    (behind : recordsOf rest = (recordsOf items).drop size)
    (later : ReadThrough machine size rest batches) :
    ReadThrough machine size items ((recordsOf items).take size :: batches) := by
  obtain ⟨nonempty, whole, count, ⟨left, last, read, ended⟩, applied⟩ := later
  have positive := fits.1
  have taken : (recordsOf items).take size ≠ [] := by
    simpa [List.take_eq_nil_iff, present] using Nat.ne_of_gt positive
  refine ⟨?_, ?_, ?_, ⟨left, last, readBatches_cons first read, ended⟩, fun e s => ?_⟩
  · intro batch member
    rcases List.mem_cons.1 member with rfl | later
    · exact taken
    · exact nonempty batch later
  · rw [List.flatten_cons, whole, behind, List.take_append_drop]
  · rw [List.length_cons, count, behind, List.length_drop,
      ceil_sub positive (List.length_pos_iff.2 present)]
  · exact Engine.runBatches_of_batch first taken (applied e)

theorem exists_readThrough (fits : Fits machine size) (items : List (Except ReadError Record)) :
    ∃ batches, ReadThrough machine size items batches := by
  -- By the number of records that are left.
  induction count : (recordsOf items).length using Nat.strongRecOn generalizing items with
  | ind count ih =>
    by_cases none : recordsOf items = []
    · exact ⟨[], .nil fits none⟩
    · obtain ⟨rest, first, behind⟩ := readBatch_of_fits fits items
      have present : 0 < (recordsOf items).length := List.length_pos_iff.2 none
      have positive := fits.1
      have fewer : (recordsOf rest).length < (recordsOf items).length := by
        rw [behind, List.length_drop]
        omega
      obtain ⟨batches, later⟩ := ih _ (by omega) rest rfl
      exact ⟨_, .cons fits none first behind later⟩

end ReadThrough

/-- Reading a log in batches, of whatever sizes, goes through its records in their order: what has
been read is always a first part of them, a batch is full unless it comes to the last record, and
it is empty only if no record is left. With batches of one size, the log is read through. -/
theorem batches_of_log (machine : Machine) (bytes : List UInt8) :
    (∀ sizes : List Nat, (∀ size ∈ sizes, Fits machine size) →
      ∃ batches mid, readBatches machine sizes (items bytes) = .ok (batches, mid) ∧
        batches.flatten ++ recordsOf mid = records bytes ∧
        ∀ size, Fits machine size → ∃ batch rest, readBatch machine size mid = .ok (batch, rest) ∧
          readBatches machine (sizes ++ [size]) (items bytes) = .ok (batches ++ [batch], rest) ∧
          batch.length ≤ size ∧ (batch.length < size → recordsOf rest = []) ∧
          (batch = [] ↔ recordsOf mid = [])) ∧
    ∀ size, Fits machine size → ∃ batches, ReadThrough machine size (items bytes) batches := by
  refine ⟨fun sizes fit => ?_, fun size fits => exists_readThrough fits _⟩
  obtain ⟨batches, mid, read, whole⟩ := exists_readBatches fit (items bytes)
  refine ⟨batches, mid, read, whole, fun size fits => ?_⟩
  obtain ⟨rest, next, behind⟩ := readBatch_of_fits fits mid
  refine ⟨_, rest, next, readBatches_append_singleton read next, List.length_take_le _ _, ?_, ?_⟩
  · intro short
    rw [List.length_take] at short
    rw [behind, List.drop_eq_nil_iff]
    omega
  · have positive := fits.1
    rw [List.take_eq_nil_iff]
    exact ⟨fun empty => empty.resolve_left (by omega), .inr⟩

/-- Three records in a log with rows that are none: two of them behind the second record, where a
batch of two ends, and one at the end. -/
def brokenLog : List UInt8 :=
  Text.encode <| "process,command,detail\na,initiate,\nb,initiate,\nb,pause,\n,start,\n" ++
    "a,request,\nzz\n"

theorem batches_of_log_broken :
    records brokenLog = [.initiate ⟨"a"⟩, .initiate ⟨"b"⟩, .command ⟨⟨"a"⟩, .request⟩] ∧
    (items brokenLog).map (·.isOk) = [true, true, false, false, true, false] ∧
    ReadThrough .host 2 (items brokenLog)
      [[.initiate ⟨"a"⟩, .initiate ⟨"b"⟩], [.command ⟨⟨"a"⟩, .request⟩]] := by
  have known : records brokenLog =
      [.initiate ⟨"a"⟩, .initiate ⟨"b"⟩, .command ⟨⟨"a"⟩, .request⟩] := by decide +kernel
  obtain ⟨batches, through⟩ := (batches_of_log .host brokenLog).2 2 ⟨by decide, rfl⟩
  have count : batches.length = 2 := by
    have needed := through.count
    change _ = ((records brokenLog).length + 2 - 1) / 2 at needed
    rwa [known] at needed
  obtain ⟨rest, last, read, -⟩ := through.read
  have concrete : (readBatches .host [2, 2] (items brokenLog)).toOption.map (·.1) =
      some [[.initiate ⟨"a"⟩, .initiate ⟨"b"⟩], [.command ⟨⟨"a"⟩, .request⟩]] := by decide +kernel
  rw [count] at read
  change readBatches .host [2, 2] (items brokenLog) = _ at read
  rw [read] at concrete
  obtain rfl := Option.some.inj concrete
  exact ⟨known, by decide +kernel, through⟩

end CommandLog

end TransferLifecycle
