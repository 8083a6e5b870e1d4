import Mathlib.Data.List.Perm.Subperm
import TransferLifecycle.Proofs.Evolution
import TransferLifecycle.Proofs.Histories
import TransferLifecycle.Proofs.Rounds

set_option autoImplicit false

/- The order in which the commands of a queue take effect. It is the order of the rounds, and each
command takes effect once at most. A command that the storage failed waits behind all that were
enqueued, so that later commands for the same process overtake it; a process of which no attempt
failed sees its commands in the order in which they were enqueued. -/
namespace TransferLifecycle

namespace Trial

/-- The commands of the trials that the storage did not fail, in their order. -/
def settledOf (trials : List Trial) : List Command :=
  (trials.filter (!·.isFailed)).map (·.command)

theorem settledOf_append (first second : List Trial) :
    settledOf (first ++ second) = settledOf first ++ settledOf second := by
  simp [settledOf]

theorem settledOf_sublist (trials : List Trial) :
    (settledOf trials).Sublist (trials.map (·.command)) := List.filter_sublist.map _

/-- A round settles its commands or fails them. -/
theorem settledOf_append_failedOf (round : List Trial) :
    (settledOf round ++ failedOf round).Perm (round.map (·.command)) := by
  have parts := List.filter_append_perm (·.isFailed) round
  rw [settledOf, failedOf, ← List.map_append]
  exact (List.perm_append_comm.trans parts).map _

/-- No command is settled twice, and one that is due still has not been settled. -/
theorem Successive.settledOf_append_dueAfter {cs : List Command} {rounds : List (List Trial)}
    (successive : Successive cs rounds) :
    (settledOf rounds.flatten ++ dueAfter cs rounds).Perm cs := by
  induction rounds generalizing cs with
  | nil => exact .refl cs
  | cons round rest ih =>
    obtain ⟨-, rfl, later⟩ := successive
    rw [List.flatten_cons, settledOf_append, List.append_assoc, dueAfter]
    exact ((ih later).append_left _).trans (settledOf_append_failedOf round)

/-- What is tried or due was among the first commands. -/
theorem Successive.mem {cs : List Command} {rounds : List (List Trial)}
    (successive : Successive cs rounds) :
    (∀ t ∈ rounds.flatten, t.command ∈ cs) ∧ ∀ c ∈ dueAfter cs rounds, c ∈ cs := by
  induction rounds generalizing cs with
  | nil => exact ⟨by simp, fun c due => due⟩
  | cons round rest ih =>
    obtain ⟨-, rfl, later⟩ := successive
    obtain ⟨tried, due⟩ := ih later
    have first : ∀ c ∈ failedOf round, c ∈ round.map (·.command) := fun c failed =>
      (List.filter_sublist.map _).subset failed
    refine ⟨fun t member => ?_, fun c member => first c (due c member)⟩
    rcases List.mem_append.1 member with now | behind
    · exact List.mem_map_of_mem now
    · exact first _ (tried t behind)

/-- The last command of an interrupted round, with those before it. -/
theorem interrupted_sublist (front : List Trial) (c : Command) (i : Interruption)
    (behind : List Command) :
    ((front ++ [(⟨c, .error i⟩ : Trial)]).map (·.command)).Sublist
      (front.map (·.command) ++ c :: behind) := by
  rw [List.map_append]
  exact List.Sublist.append_left (List.singleton_sublist.2 List.mem_cons_self) _

/-- The storage failed no attempt at a command of the process, or a command has one attempt only. -/
def Undisturbed (policy : RetryPolicy) (trials : List Trial) (x : ProcessId) : Prop :=
  policy.maxAttempts = 1 ∨ ∀ t ∈ trials, t.command.processId = x → t.isFailed = false

end Trial

namespace Queue.InRounds

open Trial (failedOf settledOf dueAfter Undisturbed)

variable {policy : RetryPolicy} {cs : List Command} {trials : List Trial}
  {result : Except Interruption Tally} {left : Queue}

/-- Each command of the queue is settled once at most. -/
theorem settledOf_subperm {made : Nat} (run : InRounds policy made cs trials result left) :
    (settledOf trials).Subperm cs := by
  cases run with
  | @emptied rounds tally successive =>
    have settled : (settledOf rounds.flatten).Sublist
        (settledOf rounds.flatten ++ dueAfter cs rounds) := List.sublist_append_left _ _
    exact settled.subperm.trans successive.settledOf_append_dueAfter.subperm
  | @interrupted rounds front c i behind successive bound answered due =>
    have last : (settledOf (front ++ [⟨c, .error i⟩])).Sublist (dueAfter cs rounds) := by
      rw [due]
      exact (Trial.settledOf_sublist _).trans (Trial.interrupted_sublist front c i behind)
    rw [List.append_assoc, Trial.settledOf_append]
    exact (last.append_left _).subperm.trans successive.settledOf_append_dueAfter.subperm

/-- A run begins by trying the commands in their order; behind the first round come only commands
that the storage failed in it, and none where no second attempt is allowed. -/
theorem begins (run : InRounds policy 0 cs trials result left) :
    ∃ first later, trials = first ++ later ∧ (first.map (·.command)).Sublist cs ∧
      (∀ t ∈ later, t.command ∈ failedOf first) ∧ (policy.maxAttempts = 1 → later = []) := by
  cases run with
  | @emptied rounds tally successive bound =>
    cases rounds with
    | nil => exact ⟨[], [], rfl, List.nil_sublist _, by simp, fun _ => rfl⟩
    | cons round rest =>
      obtain ⟨-, rfl, successive⟩ := successive
      refine ⟨round, rest.flatten, rfl, .refl _, successive.mem.1, fun single => ?_⟩
      rw [List.length_cons] at bound
      have none : rest.length = 0 := by omega
      rw [List.length_eq_zero_iff.1 none, List.flatten_nil]
  | @interrupted rounds front c i behind successive bound answered due =>
    cases rounds with
    | nil =>
      refine ⟨front ++ [⟨c, .error i⟩], [], by simp, ?_, by simp, fun _ => rfl⟩
      change cs = _ at due
      rw [due]
      exact Trial.interrupted_sublist front c i behind
    | cons round rest =>
      obtain ⟨-, rfl, successive⟩ := successive
      refine ⟨round, rest.flatten ++ (front ++ [⟨c, .error i⟩]), by simp, .refl _, ?_, ?_⟩
      · obtain ⟨tried, remaining⟩ := successive.mem
        change dueAfter (failedOf round) rest = _ at due
        rw [due] at remaining
        intro t member
        rcases List.mem_append.1 member with earlier | last
        · exact tried t earlier
        · have part := Trial.interrupted_sublist front c i behind
          exact remaining _ (part.subset (List.mem_map_of_mem last))
      · intro single
        rw [List.length_cons] at bound
        omega

/-- The commands of a process of which no attempt failed are tried in their order. -/
theorem tried_sublist (run : InRounds policy 0 cs trials result left) {x : ProcessId}
    (undisturbed : Undisturbed policy trials x) :
    ((trials.map (·.command)).filter (·.processId = x)).Sublist (cs.filter (·.processId = x)) := by
  obtain ⟨first, later, rfl, inOrder, again, single⟩ := run.begins
  have none : (later.map (·.command)).filter (·.processId = x) = [] := by
    rcases undisturbed with once | unfailed
    · rw [single once]
      rfl
    · rw [List.filter_eq_nil_iff]
      intro c member
      obtain ⟨t, tried, rfl⟩ := List.mem_map.1 member
      obtain ⟨u, failing, same⟩ := List.mem_map.1 (again t tried)
      obtain ⟨earlier, failed⟩ := List.mem_filter.1 failing
      intro own
      have fine := unfailed u (List.mem_append_left _ earlier) (by simpa [same] using own)
      rw [fine] at failed
      cases failed
  rw [List.map_append, List.filter_append, none, List.append_nil]
  exact inOrder.filter _

end Queue.InRounds

/-- What every attempt keeps, the draining of a queue keeps. -/
theorem Queue.drain_invariant {σ : Type} {I : σ → Prop} {submit : σ → Command → Attempt × σ}
    (kept : ∀ s c, I s → I (submit s c).2) (policy : RetryPolicy) {s : σ} (start : I s)
    (q : Queue) : I (q.drain policy submit s).2.2 :=
  drain_keeps (R := fun s after => I s → I after) (fun _ before => before)
    (fun first second before => second (first before)) policy
    (fun s c (_ : True) => kept s c) s (q := q) (fun _ _ => trivial) start

/-- A trial, and whether its command took effect meanwhile: a save of its process was granted. -/
structure Deed extends Trial where
  effective : Bool

namespace Deed

/-- The commands that took effect, in their order. -/
def effects (log : List Deed) : List Command := (log.filter (·.effective)).map (·.command)

theorem effects_append (log : List Deed) (t : Deed) :
    effects (log ++ [t]) = effects log ++ if t.effective = true then [t.command] else [] := by
  rw [effects, List.filter_append, List.map_append, effects]
  cases effective : t.effective <;> simp [effective]

/-- No trial that the storage failed took effect. -/
def Sound (log : List Deed) : Prop := ∀ t ∈ log, t.effective = true → t.isFailed = false

theorem Sound.effects_sublist {log : List Deed} (sound : Sound log) :
    (effects log).Sublist (Trial.settledOf (log.map (·.toTrial))) := by
  have both : log.filter (·.effective) =
      (log.filter (!·.isFailed)).filter (·.effective) := by
    rw [List.filter_filter]
    refine List.filter_congr fun t member => ?_
    cases effective : t.effective with
    | false => rfl
    | true => rw [sound t member effective]; rfl
  rw [Trial.settledOf, List.filter_map, List.map_map, effects, both]
  exact List.filter_sublist.map _

end Deed

namespace Dispatcher

/-- Keeps a list of the trials beside the session, the newest last, with what took effect. -/
def observed (d : Dispatcher) (s : Session × List Deed) (c : Command) :
    Attempt × Session × List Deed :=
  ((d.apply s.1 c).1, (d.apply s.1 c).2, s.2 ++ [⟨⟨c, (d.apply s.1 c).1⟩,
    s.1.store.saves c.processId < (d.apply s.1 c).2.store.saves c.processId⟩])

/-- The commands that take effect when a queue of the given ones is drained, in their order. -/
def effects (d : Dispatcher) (policy : RetryPolicy) (s : Session) (cs : List Command) :
    List Command :=
  Deed.effects ((Queue.enqueued cs).drain policy d.observed (s, [])).2.2.2

variable {d : Dispatcher}

/-- The trials are the same with the effects beside them. -/
theorem drain_observed (d : Dispatcher) (policy : RetryPolicy) (s : Session) (q : Queue) :
    q.drain policy (Queue.watched d.apply) (s, []) =
      ((q.drain policy d.observed (s, [])).1, (q.drain policy d.observed (s, [])).2.1,
        (q.drain policy d.observed (s, [])).2.2.1,
        (q.drain policy d.observed (s, [])).2.2.2.map (·.toTrial)) := by
  have step : ∀ (t : Session × List Deed) c,
      Queue.watched d.apply (t.1, t.2.map (·.toTrial)) c =
        ((d.observed t c).1, ((d.observed t c).2.1, (d.observed t c).2.2.map (·.toTrial))) := by
    intro t c
    simp [Queue.watched, observed]
  exact Queue.drain_view policy (fun t : Session × List Deed => (t.1, t.2.map (·.toTrial)))
    step (s, []) q

/-- An attempt that the storage fails saves nothing. -/
theorem saves_of_isFailed (standard : d.registry = Registry.standard) {s : Session}
    (atomic : s.store.Atomic) (c : Command) (x : ProcessId)
    (failed : Attempt.isStorageFailure (d.apply s c).1 = true) :
    (d.apply s c).2.store.saves x = s.store.saves x := by
  obtain ⟨submit, -, eq⟩ := d.apply_eq_applyWith s c
  rw [eq] at failed ⊢
  have path := d.applyWith_handled standard submit s c
  generalize (d.applyWith submit s c).1 = answer at path failed
  generalize (d.applyWith submit s c).2 = after at path ⊢
  cases path with
  | invalid _ => rfl
  | failed still => exact still.saves x
  | refused _ still => exact still.saves x
  | kept _ _ still => exact still.saves x
  | lost _ _ _ fate => exact absurd fate (atomic _ _)
  | announced _ _ _ _ _ _ => cases failed
  | aborted _ _ _ _ _ _ => cases failed

theorem apply_atomic (standard : d.registry = Registry.standard) {s : Session}
    (atomic : s.store.Atomic) (c : Command) : (d.apply s c).2.store.Atomic := by
  have evolves : s.Evolves (fun _ => True) (d.journal s c) (d.apply s c).2 :=
    d.apply_evolves standard (fun _ _ => trivial) trivial atomic
  exact evolves.world.atomic atomic

/-- Where the listeners submit nothing, an attempt saves nothing, or its own process once. -/
theorem saves_apply (standard : d.registry = Registry.standard)
    (quiet : ∀ l ∈ d.listeners, l.Quiet) {s : Session} (atomic : s.store.Atomic) (c : Command) :
    (∀ x, (d.apply s c).2.store.saves x = s.store.saves x) ∨
    ∀ x, (d.apply s c).2.store.saves x = s.store.saves x + if c.processId = x then 1 else 0 := by
  obtain ⟨submit, -, eq⟩ := d.apply_eq_applyWith s c
  rw [eq]
  have path := d.applyWith_handled standard submit s c
  generalize (d.applyWith submit s c).1 = answer at path
  generalize (d.applyWith submit s c).2 = after at path ⊢
  have saved : ∀ {old stopped after}, s.store.get? c.processId = some old →
      (s.read c.processId).store.fateOf (.save c.processId) = .granted →
      (s.acted c old).announce submit (c.moved old s.clock.now) old.state 0 d.listeners =
        (stopped, after) →
      ∀ x, after.store.saves x = s.store.saves x + if c.processId = x then 1 else 0 := by
    intro old stopped after stored fate told x
    obtain ⟨heard, last, -⟩ := Session.announce_of_quiet submit quiet (c.moved old s.clock.now)
      old.state 0 (s.acted c old)
    rw [told] at last
    change after = _ at last
    rw [last]
    exact s.saves_acted c stored fate x
  cases path with
  | invalid _ => exact .inl fun _ => rfl
  | failed still => exact .inl still.saves
  | refused _ still => exact .inl still.saves
  | kept _ _ still => exact .inl still.saves
  | lost _ _ _ fate => exact absurd fate (atomic _ _)
  | announced _ stored _ fate _ told => exact .inr (saved stored fate told)
  | aborted _ stored _ fate _ told => exact .inr (saved stored fate told)

theorem drain_sound (standard : d.registry = Registry.standard) (policy : RetryPolicy)
    {s : Session} (atomic : s.store.Atomic) (q : Queue) :
    Deed.Sound (q.drain policy d.observed (s, [])).2.2.2 := by
  have step : ∀ (t : Session × List Deed) c, t.1.store.Atomic ∧ Deed.Sound t.2 →
      (d.observed t c).2.1.store.Atomic ∧ Deed.Sound (d.observed t c).2.2 := by
    rintro ⟨s, log⟩ c ⟨atomic, sound⟩
    refine ⟨apply_atomic standard atomic c, fun t member effective => ?_⟩
    rcases List.mem_append.1 member with earlier | last
    · exact sound t earlier effective
    · rw [List.mem_singleton.1 last] at effective ⊢
      cases failed : Attempt.isStorageFailure (d.apply s c).1 with
      | false => exact failed
      | true =>
        have saved := saves_of_isFailed standard atomic c c.processId failed
        simp [saved] at effective
  exact (Queue.drain_invariant step policy ⟨atomic, fun t member => by cases member⟩ q).2

/-- Where the listeners submit nothing, the effects are all that is saved. -/
theorem saves_drain (standard : d.registry = Registry.standard)
    (quiet : ∀ l ∈ d.listeners, l.Quiet) (policy : RetryPolicy) {s : Session}
    (atomic : s.store.Atomic) (q : Queue) (x : ProcessId) :
    (q.drain policy d.observed (s, [])).2.2.1.store.saves x = s.store.saves x +
      (Deed.effects (q.drain policy d.observed (s, [])).2.2.2).countP (·.processId = x) := by
  have step : ∀ (t : Session × List Deed) c,
      (t.1.store.Atomic ∧
        t.1.store.saves x = s.store.saves x + (Deed.effects t.2).countP (·.processId = x)) →
      (d.observed t c).2.1.store.Atomic ∧
        (d.observed t c).2.1.store.saves x =
          s.store.saves x + (Deed.effects (d.observed t c).2.2).countP (·.processId = x) := by
    rintro ⟨mid, log⟩ c ⟨atomic, counted⟩
    refine ⟨apply_atomic standard atomic c, ?_⟩
    simp only [observed, Deed.effects_append, decide_eq_true_eq] at counted ⊢
    rcases saves_apply standard quiet atomic c with same | saved
    · rw [same, same, if_neg (Nat.lt_irrefl _), List.append_nil]
      exact counted
    · have more : mid.store.saves c.processId < (d.apply mid c).2.store.saves c.processId := by
        rw [saved, if_pos rfl]
        exact Nat.lt_succ_self _
      rw [if_pos more, saved, counted, List.countP_append, List.countP_singleton, Nat.add_assoc]
      simp only [decide_eq_true_eq]
  exact (Queue.drain_invariant step policy ⟨atomic, rfl⟩ q).2

/-- Where failed calls have done nothing, the commands of a queue take effect in the order of the
rounds in which they are tried, and each of them once at most; nothing else is saved where the
listeners submit nothing. The commands of a process take effect in the order in which they were
enqueued, if the storage failed no attempt at one of them or no second attempt is allowed. -/
theorem drained_effects (standard : d.registry = Registry.standard) {s : Session}
    (atomic : s.store.Atomic) (policy : RetryPolicy) (cs : List Command) :
    ∃ trials result left last,
      (Queue.enqueued cs).drain policy (Queue.watched d.apply) (s, []) =
        (result, left, (last, trials)) ∧
      (Queue.enqueued cs).drain policy d.apply s = (result, left, last) ∧
      Queue.InRounds policy 0 cs trials result left ∧
      (d.effects policy s cs).Sublist (Trial.settledOf trials) ∧
      (d.effects policy s cs).Subperm cs ∧
      ((∀ l ∈ d.listeners, l.Quiet) → ∀ x, last.store.saves x =
        s.store.saves x + (d.effects policy s cs).countP (·.processId = x)) ∧
      ∀ x, Trial.Undisturbed policy trials x →
        ((d.effects policy s cs).filter (·.processId = x)).Sublist
          (cs.filter (·.processId = x)) := by
  obtain ⟨trials, result, left, last, watched, drained, run, -, -⟩ :=
    Queue.drain_in_rounds policy d.apply s cs
  have seen := d.drain_observed policy s (Queue.enqueued cs)
  rw [watched] at seen
  obtain ⟨-, -, sessions, trialsOf⟩ : result = _ ∧ left = _ ∧
      last = ((Queue.enqueued cs).drain policy d.observed (s, [])).2.2.1 ∧
      trials = ((Queue.enqueued cs).drain policy d.observed (s, [])).2.2.2.map (·.toTrial) := by
    simpa only [Prod.mk.injEq] using seen
  have settled : (d.effects policy s cs).Sublist (Trial.settledOf trials) := by
    rw [trialsOf]
    exact (drain_sound standard policy atomic _).effects_sublist
  refine ⟨trials, result, left, last, watched, drained, run, settled,
    settled.subperm.trans run.settledOf_subperm, fun quiet x => ?_, fun x undisturbed => ?_⟩
  · rw [sessions]
    exact saves_drain standard quiet policy atomic _ x
  · have tried := settled.trans (Trial.settledOf_sublist trials)
    exact (tried.filter _).trans (run.tried_sublist undisturbed)

/-- Two started processes, and a storage that refuses the first save of one of them. -/
def faultyStart : Session :=
  .start ⟨.ofList [⟨⟨"a"⟩, .started, 2, .ofSeconds 0, none⟩,
    ⟨⟨"b"⟩, .started, 2, .ofSeconds 0, none⟩], [],
    Fault.fate [⟨"save", some ⟨"a"⟩, 1, "offline"⟩]⟩ ⟨fun k => .ofSeconds (10 + k), 0⟩

/-- A termination of the process whose save is refused, before commands for the other. -/
def faultyCommands : List Command :=
  [⟨⟨"a"⟩, .terminate "withdrawn"⟩, ⟨⟨"b"⟩, .suspend none⟩, ⟨⟨"b"⟩, .terminate "expired"⟩]

theorem drained_effects_beside_fault :
    faultyStart.store.Atomic ∧
      (Engine.standard .default).dispatcher.effects .default faultyStart faultyCommands =
        [⟨⟨"b"⟩, .suspend none⟩, ⟨⟨"b"⟩, .terminate "expired"⟩, ⟨⟨"a"⟩, .terminate "withdrawn"⟩] ∧
      ((Engine.standard .default).dispatcher.effects .default faultyStart faultyCommands).Subperm
        faultyCommands ∧
      ((Queue.enqueued faultyCommands).drain .default (Engine.standard .default).dispatcher.apply
        faultyStart).2.2.store.saves ⟨"b"⟩ = 2 ∧
      Trial.Undisturbed .default ((Queue.enqueued faultyCommands).drain .default
        (Queue.watched (Engine.standard .default).dispatcher.apply) (faultyStart, [])).2.2.2 ⟨"b"⟩ ∧
      (((Engine.standard .default).dispatcher.effects .default faultyStart faultyCommands).filter
        (·.processId = ⟨"b"⟩)).Sublist (faultyCommands.filter (·.processId = ⟨"b"⟩)) := by
  have atomic : faultyStart.store.Atomic := Fault.atomic _ _ _
  have effective : (Engine.standard .default).dispatcher.effects .default faultyStart
      faultyCommands = [⟨⟨"b"⟩, .suspend none⟩, ⟨⟨"b"⟩, .terminate "expired"⟩,
        ⟨⟨"a"⟩, .terminate "withdrawn"⟩] := by decide +kernel
  have quiet : ∀ l ∈ (Engine.standard .default).dispatcher.listeners, l.Quiet := by
    intro l member
    rw [List.mem_singleton.1 member]
    exact Listener.silent_calm.quiet
  have calm : ((Queue.enqueued faultyCommands).drain .default
      (Queue.watched (Engine.standard .default).dispatcher.apply) (faultyStart, [])).2.2.2.all
        (fun t => t.command.processId ≠ ⟨"b"⟩ || !t.isFailed) = true := by decide +kernel
  obtain ⟨trials, result, left, last, watched, drained, -, -, once, saved, ordered⟩ :=
    drained_effects (d := (Engine.standard .default).dispatcher) rfl atomic .default faultyCommands
  have undisturbed : Trial.Undisturbed .default trials ⟨"b"⟩ := by
    rw [watched] at calm
    refine .inr fun t member own => ?_
    have fine := List.all_eq_true.1 calm t member
    simpa [own] using fine
  have twice : last.store.saves ⟨"b"⟩ = 2 := by
    rw [saved quiet ⟨"b"⟩, effective]
    rfl
  rw [drained, watched]
  exact ⟨atomic, effective, once, twice, undisturbed, ordered ⟨"b"⟩ undisturbed⟩

/-- A termination that the storage refuses once is overtaken by the pause behind it, which takes
effect on the process that was to be terminated before. -/
theorem effects_overtake :
    faultyStart.store.Atomic ∧
      (Engine.standard .default).dispatcher.effects .default faultyStart
          [⟨⟨"a"⟩, .terminate "withdrawn"⟩, ⟨⟨"a"⟩, .suspend none⟩] =
        [⟨⟨"a"⟩, .suspend none⟩, ⟨⟨"a"⟩, .terminate "withdrawn"⟩] ∧
      ¬ List.Sublist [⟨⟨"a"⟩, .suspend none⟩, ⟨⟨"a"⟩, .terminate "withdrawn"⟩]
        ([⟨⟨"a"⟩, .terminate "withdrawn"⟩, ⟨⟨"a"⟩, .suspend none⟩] : List Command) :=
  ⟨Fault.atomic _ _ _, by decide +kernel, by decide +kernel⟩

end Dispatcher

end TransferLifecycle
