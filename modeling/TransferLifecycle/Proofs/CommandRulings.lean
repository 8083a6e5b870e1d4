import TransferLifecycle.Proofs.StandardPaths
import TransferLifecycle.Proofs.WriteContract

set_option autoImplicit false

/- What a command comes to under the standard handlers, as one list of rules that are asked in
order. The dispatcher, its handlers and the transitions together answer as the rules do, and make
the calls and leave the rows that the rules name. -/
namespace TransferLifecycle

/-- The outcome of a command, the calls it makes at the store, the newest first, and the process
that it stores. -/
structure Ruling where
  outcome : Outcome TransferProcess
  calls : List Call
  written : Option TransferProcess

namespace Command

end Command

namespace Session

/-- The session after a commit has the calls and the rows of a ruling, and nobody was told. -/
structure Obeys (s : Session) (r : Ruling) (after : Session) : Prop where
  calls : after.store.calls = r.calls ++ s.store.calls
  rows : ∀ id, after.store.get? id =
    if (r.written.map (·.id)) = some id then r.written else s.store.get? id
  deliveries : after.deliveries = s.deliveries

/-- A commit came to what a ruling says; it is a change exactly if the ruling stores something. -/
structure Commits (s : Session) (r : Ruling) (commit : Commit) (after : Session) : Prop where
  outcome : commit.outcome = r.outcome
  changed : ∀ p previous, commit = .changed p previous → r.written = some p
  unchanged : (∀ p previous, commit ≠ .changed p previous) → r.written = none
  obeys : s.Obeys r after

variable {s : Session} {c : Command} {p : TransferProcess}

theorem Commits.of_guard {r : Ruling} {commit : Commit} {after : Session} {id : ProcessId}
    (commits : (s.guard id).Commits r commit after) : s.Commits r commit after := by
  have obeys := commits.obeys
  refine ⟨commits.outcome, commits.changed, commits.unchanged, ?_, ?_, ?_⟩
  · simpa only [store_guard] using obeys.calls
  · simpa only [store_guard] using obeys.rows
  · simpa only [deliveries_guard] using obeys.deliveries

end Session

namespace Dispatcher

variable {d : Dispatcher} {submit : Session → Command → Attempt × Session} {s after : Session}
  {c : Command} {answer : Attempt}

end Dispatcher

end TransferLifecycle
