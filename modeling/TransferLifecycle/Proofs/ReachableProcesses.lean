import TransferLifecycle.Proofs.ProcessShapes
import TransferLifecycle.Proofs.RecordSteps

set_option autoImplicit false

/- What a run from an empty store leaves there. Every stored process goes back to its initiation
through the transitions that the journal of the run has for it, and the granted saves count them. -/
namespace TransferLifecycle

theorem Store.saves_record_create (s : Store) (id x : ProcessId) :
    (s.record (.create id)).saves x = s.saves x := by
  simp [saves, record, grantedSaves]

namespace Session

/-- Since `start`, the given transitions were committed, and every stored process came from its
initiation by its own among them. -/
structure Descends (asked : Command → Prop) (start : Session) (links : List Link) (s : Session) :
    Prop where
  world : start.SameWorld s
  forward : start.clock.taken ≤ s.clock.taken
  legal : ∀ x, ∀ l ∈ Link.about x links, l.Legal asked (start.Shown s) x
  saves : ∀ x, s.store.saves x = (Link.about x links).length
  absent : ∀ x, s.store.get? x = none → Link.about x links = []
  stored : ∀ x p, s.store.get? x = some p → ∃ birth, start.Shown s birth ∧
    Link.Chain (some (.initial x birth)) (Link.about x links) (some p)

variable {asked : Command → Prop} {start s after : Session} {links more : List Link}

theorem descends_start (script : List Call → Fate) (clock : Clock) :
    Descends asked (.start ⟨.empty, [], script⟩ clock) [] (.start ⟨.empty, [], script⟩ clock) where
  world := ⟨rfl, rfl⟩
  forward := Nat.le_refl _
  legal x l member := by cases member
  saves _ := rfl
  absent _ _ := rfl
  stored x p found := by cases found

theorem Descends.evolves (descends : Descends asked start links s)
    (evolves : s.Evolves asked more after) : Descends asked start (links ++ more) after where
  world := descends.world.trans evolves.world
  forward := Nat.le_trans descends.forward evolves.forward
  legal x := by
    rw [Link.about_append]
    exact legal_append (descends.legal x) (evolves.legal x) descends.world descends.forward
      evolves.forward
  saves x := by rw [evolves.saves, descends.saves, Link.about_append, List.length_append]
  absent x missing := by
    have chain := evolves.rows x
    rw [missing] at chain
    rw [Link.about_append]
    cases before : s.store.get? x with
    | none =>
      rw [before] at chain
      rw [descends.absent x before, chain.of_none.1, List.append_nil]
    | some p =>
      rw [before] at chain
      obtain ⟨q, present⟩ := chain.of_some
      cases present
  stored x q found := by
    have chain := evolves.rows x
    rw [found] at chain
    cases before : s.store.get? x with
    | none =>
      rw [before] at chain
      cases chain.of_none.2
    | some p =>
      rw [before] at chain
      obtain ⟨birth, born, first⟩ := descends.stored x p before
      rw [Link.about_append]
      exact ⟨birth, born.until evolves.forward, first.append chain⟩

/-- The session after a call to create a process that wrote nothing. -/
theorem still_creating (s : Session) (id : ProcessId) :
    s.Still { s with store := s.store.record (.create id), clock := s.clock.advance } where
  world := ⟨rfl, rfl⟩
  forward := Nat.le_succ _
  rows := rfl
  saves x := s.store.saves_record_create id x
  deliveries := rfl

end Session

namespace Engine

variable {e : Engine} {asked : Command → Prop} {start s : Session} {links : List Link}

theorem initiate_descends (descends : Session.Descends asked start links s)
    (atomic : s.store.Atomic) (id : ProcessId) :
    Session.Descends asked start links (initiate s id).2 := by
  have path := Store.create_created atomic (.initial id s.clock.now)
  have still : Session.Descends asked start links
      { s with store := s.store.record (.create id), clock := s.clock.advance } := by
    have evolves : s.Evolves asked [] _ := (s.still_creating id).evolves
    have later := descends.evolves evolves
    rwa [List.append_nil] at later
  unfold initiate
  rcases created : s.store.create (.initial id s.clock.now) with ⟨answer, store⟩
  rw [created] at path
  cases path with
  | refused _ => exact still
  | taken _ => exact still
  | stored missing =>
    have row : ∀ x, ((s.store.record (.create id)).put (.initial id s.clock.now)).get? x =
        if id = x then some (.initial id s.clock.now) else s.store.get? x :=
      Store.get?_put _ _
    refine ⟨still.world, still.forward, still.legal, still.saves, ?_, ?_⟩
    · intro x none
      by_cases own : id = x
      · exact descends.absent x (own ▸ missing)
      · exact descends.absent x (((row x).trans (if_neg own)).symm.trans none)
    · intro x p found
      by_cases own : id = x
      · subst own
        obtain rfl := Option.some.inj (((row id).trans (if_pos rfl)).symm.trans found)
        refine ⟨s.clock.now, ⟨_, descends.forward, Nat.lt_succ_self _, ?_⟩, ?_⟩
        · rw [← descends.world.2]
          rfl
        · rw [descends.absent id missing]
          rfl
      · exact still.stored x p (((row x).trans (if_neg own)).symm.trans found)

theorem command_evolves (standard : e.dispatcher.registry = Registry.standard)
    (listening : ∀ c, e.dispatcher.Submits c → asked c) (atomic : s.store.Atomic) {c : Command}
    (known : asked c) :
    s.Evolves asked (e.recordJournal s (.command c)) (e.apply s (.command c)).2 := by
  have each : ∀ (t : Session × List Link) c, asked c →
      Session.Journaled asked t (e.dispatcher.journaled t c).2 := fun t c known =>
    ⟨_, rfl, fun atomic => e.dispatcher.apply_evolves standard listening known atomic⟩
  have queued : ∀ item ∈ Queue.push [] c, asked item.command := by
    intro item member
    rwa [List.mem_singleton.1 member]
  obtain ⟨more, entered, evolves⟩ := Queue.drain_keeps Session.Journaled.refl
    Session.Journaled.trans e.policy each (s, []) queued
  have step : ∀ (t : Session × List Link) c, e.dispatcher.apply t.1 c =
      ((e.dispatcher.journaled t c).1, (e.dispatcher.journaled t c).2.1) := fun _ _ => rfl
  have run := Queue.drain_view e.policy Prod.fst step (s, []) (Queue.push [] c)
  have last : (e.apply s (.command c)).2 =
      ((Queue.push [] c).drain e.policy e.dispatcher.journaled (s, [])).2.2.1 := by
    rw [apply, run]
  rw [last, recordJournal, entered]
  exact evolves atomic

/-- The session after all records of a log, whatever each of them came to. -/
def applyAll (e : Engine) (s : Session) (log : List Record) : Session :=
  log.foldl (fun s r => (e.apply s r).2) s

theorem applyAll_descends (standard : e.dispatcher.registry = Registry.standard)
    (listening : ∀ c, e.dispatcher.Submits c → asked c) {log : List Record}
    (known : ∀ c, .command c ∈ log → asked c) (atomic : s.store.Atomic)
    (descends : Session.Descends asked start links s) :
    Session.Descends asked start (links ++ e.journal s log) (e.applyAll s log) := by
  induction log generalizing s links with
  | nil =>
    rw [journal, List.append_nil]
    exact descends
  | cons r rest ih =>
    have later := fun c member => known c (List.mem_cons_of_mem r member)
    rw [journal, ← List.append_assoc]
    cases r with
    | initiate id =>
      have world := initiate_sameWorld atomic id
      rw [recordJournal, List.append_nil]
      exact ih later (world.atomic atomic) (initiate_descends descends atomic id)
    | command c =>
      have evolves := command_evolves standard listening atomic (known c List.mem_cons_self)
      exact ih later (evolves.world.atomic atomic) (descends.evolves evolves)

/-- Every process that a run from an empty store leaves there came from its initiation by the
transitions that the journal of the run has for it. They are counted, and the process has the shape
that their number and the last command among them give it. -/
theorem stored_process_shape {e : Engine} (standard : e.dispatcher.registry = Registry.standard)
    {script : List Call → Fate} (atomic : (Store.mk .empty [] script).Atomic) (clock : Clock)
    (log : List Record) {x : ProcessId} {p : TransferProcess}
    (stored : (e.applyAll (.start ⟨.empty, [], script⟩ clock) log).store.get? x = some p) :
    let start := Session.start ⟨.empty, [], script⟩ clock
    let last := e.applyAll start log
    let transitions := Link.about x (e.journal start log)
    (∃ birth, start.Shown last birth ∧
      Link.Chain (some (.initial x birth)) transitions (some p)) ∧
    (∀ l ∈ transitions,
      l.Legal (fun c => .command c ∈ log ∨ e.dispatcher.Submits c) (start.Shown last) x) ∧
    transitions.length = last.store.saves x ∧
    p.stateCount.toNat = min transitions.length 0xFFFFFFFF ∧
    p.Shape transitions.length (transitions.getLast?.map Link.command) := by
  intro start last transitions
  have descends : start.Descends (fun c => .command c ∈ log ∨ e.dispatcher.Submits c)
      (e.journal start log) last :=
    applyAll_descends standard (fun _ => .inr) (fun _ => .inl) atomic
      (Session.descends_start script clock)
  obtain ⟨birth, born, chain⟩ := descends.stored x p stored
  have legal := descends.legal x
  have count := chain.count legal
  have shape := chain.shape legal (TransferProcess.shape_initial x birth)
  refine ⟨⟨birth, born, chain⟩, legal, (descends.saves x).symm, ?_, ?_⟩
  · rw [count]
    change min (0 + transitions.length) _ = _
    rw [Nat.zero_add]
  · rw [Nat.zero_add, Option.or_none] at shape
    exact shape

/-- The third call is refused, so that the first request is made a second time. -/
def refuseThird (calls : List Call) : Fate :=
  if calls.length = 3 then .refused (.unavailable "save" "offline") else .granted

theorem atomic_refuseThird : (Store.mk .empty [] refuseThird).Atomic := by
  intro calls e lost
  simp only [refuseThird] at lost
  split at lost <;> cases lost

def pausedStart : Session := .start ⟨.empty, [], refuseThird⟩ (.fixed (.ofSeconds 7))

/-- A process that is paused twice, the second time with no reason. -/
def pausedLog : List Record :=
  [.initiate ⟨"a"⟩, .command ⟨⟨"a"⟩, .request⟩, .command ⟨⟨"a"⟩, .start⟩,
    .command ⟨⟨"a"⟩, .suspend (some "quota")⟩, .command ⟨⟨"a"⟩, .suspend (some "again")⟩,
    .command ⟨⟨"a"⟩, .resume⟩, .command ⟨⟨"a"⟩, .suspend none⟩]

def pausedTransitions : List Link :=
  Link.about ⟨"a"⟩ ((standard .default).journal pausedStart pausedLog)

theorem stored_process_shape_paused :
    (Store.mk .empty [] refuseThird).Atomic ∧
    ((standard .default).applyAll pausedStart pausedLog).store.get? ⟨"a"⟩ =
      some ⟨⟨"a"⟩, .suspended, 5, .ofSeconds 7, none⟩ ∧
    pausedTransitions.map (·.command.action) =
      [.request, .start, .suspend (some "quota"), .resume, .suspend none] ∧
    ((standard .default).applyAll pausedStart pausedLog).store.saves ⟨"a"⟩ = 5 ∧
    TransferProcess.Shape 5 (some ⟨⟨"a"⟩, .suspend none⟩)
      ⟨⟨"a"⟩, .suspended, 5, .ofSeconds 7, none⟩ := by
  have stored : ((standard .default).applyAll pausedStart pausedLog).store.get? ⟨"a"⟩ =
      some ⟨⟨"a"⟩, .suspended, 5, .ofSeconds 7, none⟩ := by decide +kernel
  obtain ⟨-, -, saved, -, shape⟩ := stored_process_shape (e := standard .default) rfl
    atomic_refuseThird (.fixed (.ofSeconds 7)) pausedLog stored
  change pausedTransitions.length = _ at saved
  change TransferProcess.Shape pausedTransitions.length
    (pausedTransitions.getLast?.map Link.command) _ at shape
  have count : pausedTransitions.length = 5 := by decide +kernel
  have last : pausedTransitions.getLast?.map Link.command = some ⟨⟨"a"⟩, .suspend none⟩ := by
    decide +kernel
  rw [count, last] at shape
  exact ⟨atomic_refuseThird, stored, by decide +kernel, saved.symm.trans count, shape⟩

end Engine

end TransferLifecycle
