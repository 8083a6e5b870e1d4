import TransferLifecycle.Proofs.Interruptions
import TransferLifecycle.Proofs.Visits

set_option autoImplicit false

/- A save that is reported as failed may still have been done. The command is tried again then, and
the attempt that follows finds its own write: however the calls of the storage end, the command has
its effect once at most. -/
namespace TransferLifecycle

namespace Queue

variable {σ : Type} {policy : RetryPolicy} {submit : σ → Command → Attempt × σ} {c : Command}

/-- From `s`, with `made` attempts behind them, the attempts `failed` and then `last` are made at a
command and lead to the session `after`. The storage failed all but the last one, and the last one
decides about the result. -/
structure Worked (policy : RetryPolicy) (submit : σ → Command → Attempt × σ) (c : Command)
    (made : Nat) (s : σ) (failed : List Attempt) (last : Attempt)
    (result : Except Interruption Tally) (after : σ) : Prop where
  within : made + failed.length < policy.maxAttempts
  failures : ∀ a ∈ failed, Attempt.isStorageFailure a = true
  attempts : repeated submit c (failed.length + 1) s = (failed ++ [last], after)
  interrupted : ∀ i, result = .error i → last = .error i
  processed : ∀ tally, result = .ok tally → 0 < tally.processed → ∃ p, last = .ok (.success p)

namespace Worked

variable {made : Nat} {s mid after : σ} {last : Attempt} {result : Except Interruption Tally}

theorem single (left : made < policy.maxAttempts) (attempt : submit s c = (last, after))
    (interrupted : ∀ i, result = .error i → last = .error i)
    (processed : ∀ tally, result = .ok tally → 0 < tally.processed → ∃ p, last = .ok (.success p)) :
    Worked policy submit c made s [] last result after where
  within := left
  failures a member := by cases member
  attempts := by simp only [List.length_nil, repeated, attempt, List.nil_append]
  interrupted := interrupted
  processed := processed

theorem again {f : Failure} {failed : List Attempt}
    (attempt : submit s c = (.ok (.failure f), mid)) (retryable : f.isRetryable = true)
    (rest : Worked policy submit c (made + 1) mid failed last result after) :
    Worked policy submit c made s (.ok (.failure f) :: failed) last
      (result.map (Tally.add ⟨0, 0, 1, 0⟩)) after where
  within := by
    have bound := rest.within
    rw [List.length_cons]
    omega
  failures a member := by
    rcases List.mem_cons.1 member with rfl | later
    · exact retryable
    · exact rest.failures a later
  attempts := by
    rw [List.length_cons, repeated, attempt]
    simp only [rest.attempts, List.cons_append]
  interrupted i stopped := by
    cases result with
    | error j =>
      cases stopped
      exact rest.interrupted i rfl
    | ok tally => cases stopped
  processed tally counted positive := by
    cases result with
    | error j => cases counted
    | ok sum =>
      cases counted
      refine rest.processed sum rfl ?_
      simpa [Tally.add] using positive

end Worked

/-- Draining a queue with one command is a number of attempts at it. -/
theorem drain_worked (policy : RetryPolicy) (submit : σ → Command → Attempt × σ) (c : Command)
    {made : Nat} (left : made < policy.maxAttempts) (s : σ) :
    ∃ failed last, Worked policy submit c made s failed last
      (drain policy submit s [⟨c, made⟩]).1 (drain policy submit s [⟨c, made⟩]).2.2 := by
  -- By the number of attempts that are left.
  induction rest : policy.maxAttempts - made using Nat.strongRecOn generalizing made s with
  | ind rest ih =>
    rcases attempt : submit s c with ⟨answer, mid⟩
    cases answer with
    | error i =>
      rw [drain_cons_of_error attempt]
      refine ⟨[], .error i, .single left attempt (fun j stopped => ?_) (by simp)⟩
      cases stopped
      rfl
    | ok outcome =>
      cases failed : Attempt.isStorageFailure (.ok outcome) with
      | false =>
        rw [drain_of_settled policy made attempt failed]
        refine ⟨[], .ok outcome, .single left attempt (by simp) fun tally counted positive => ?_⟩
        cases counted
        cases outcome with
        | success p => exact ⟨p, rfl⟩
        | failure f => cases positive
      | true =>
        cases outcome with
        | success p => cases failed
        | failure f =>
          change f.isRetryable = true at failed
          by_cases more : made + 1 < policy.maxAttempts
          · obtain ⟨others, last, later⟩ :=
              ih (policy.maxAttempts - (made + 1)) (by omega) more mid rfl
            rw [drain_of_again policy made attempt failed more]
            exact ⟨_, last, later.again attempt failed⟩
          · rw [drain_of_last policy made attempt failed (by omega)]
            refine ⟨[], _, .single left attempt (by simp) fun tally counted positive => ?_⟩
            cases counted
            cases positive

end Queue

namespace Dispatcher

/-- What one attempt does to the stored process `old`: nothing, or one transition, whatever is
reported about it. Only a transition that is acknowledged is told. -/
inductive Effect (d : Dispatcher) (c : Command) (s : Session) (old : TransferProcess) :
    Attempt → Session → Prop
  | none {outcome : Outcome TransferProcess} {after : Session}
      (rows : after.store.roster = s.store.roster) (untold : after.deliveries = s.deliveries)
      (there : ∀ p, outcome = .success p → p = old ∧ old.state = c.kind.target) :
      Effect d c s old (.ok outcome) after
  | moved {answer : Attempt} {after : Session} {heard : List Delivery}
      (source : old.state ∈ c.kind.sources)
      (rows : ∀ x, after.store.get? x =
        if c.processId = x then some (c.moved old s.clock.now) else s.store.get? x)
      (told : s.Hears heard after)
      (part : heard.reverse <+:
        Session.announcement (c.moved old s.clock.now) old.state 0 d.listeners)
      (untold : Attempt.isStorageFailure answer = true → heard = [])
      (there : ∀ p, answer = .ok (.success p) → p = c.moved old s.clock.now)
      (aborted : ∀ i, answer = .error i → d.AbortedBy i) : Effect d c s old answer after

variable {d : Dispatcher} {s : Session} {c : Command} {old : TransferProcess}

theorem apply_effect (standard : d.registry = Registry.standard)
    (quiet : ∀ l ∈ d.listeners, l.Quiet) (stored : s.store.get? c.processId = some old) :
    d.Effect c s old (d.apply s c).1 (d.apply s c).2 := by
  obtain ⟨submit, -, eq⟩ := d.apply_eq_applyWith s c
  rw [eq]
  have path := d.applyWith_handled standard submit s c
  generalize (d.applyWith submit s c).1 = answer at path ⊢
  generalize (d.applyWith submit s c).2 = after at path ⊢
  have same : ∀ {p}, s.store.get? c.processId = some p → old = p :=
    fun found => Option.some.inj (stored.symm.trans found)
  have rows := s.get?_acted c stored
  have hears : ∀ {stopped after}, (s.acted c old).announce submit (c.moved old s.clock.now)
      old.state 0 d.listeners = (stopped, after) →
      ∃ heard, after.store = (s.acted c old).store ∧ s.Hears heard after ∧
        heard.reverse <+:
          Session.announcement (c.moved old s.clock.now) old.state 0 d.listeners := by
    intro stopped after told
    obtain ⟨heard, last, part, -⟩ := Session.announce_of_quiet submit quiet
      (c.moved old s.clock.now) old.state 0 (s.acted c old)
    rw [told] at last
    change after = _ at last
    refine ⟨heard, by rw [last], ?_, part⟩
    rw [last, Session.Hears, s.deliveries_acted]
  cases path with
  | invalid _ => exact .none rfl rfl (by simp)
  | failed still => exact .none still.rows still.deliveries (by simp)
  | refused _ still => exact .none still.rows still.deliveries (by simp)
  | kept found there still =>
    obtain rfl := same found
    refine .none still.rows still.deliveries fun p success => ?_
    cases success
    exact ⟨rfl, there⟩
  | lost _ found source _ =>
    obtain rfl := same found
    have untold : s.Hears [] (s.acted c old) := s.deliveries_acted c
    exact .moved source rows untold List.nil_prefix (fun _ => rfl) (by simp) (by simp)
  | announced _ found source _ _ told =>
    obtain rfl := same found
    obtain ⟨heard, store, hears, part⟩ := hears told
    rw [← store] at rows
    refine .moved source rows hears part (by simp [Attempt.isStorageFailure]) ?_ (by simp)
    intro p success
    cases success
    rfl
  | aborted _ found source _ _ told =>
    obtain rfl := same found
    obtain ⟨heard, store, hears, part⟩ := hears told
    rw [← store] at rows
    refine .moved source rows hears part (by simp [Attempt.isStorageFailure]) (by simp) ?_
    intro i stopped
    cases stopped
    obtain ⟨l, member, aborts⟩ := Session.abort_of_announce told
    exact ⟨_, rfl, l, member, aborts.of_quiet (quiet l member)⟩

/-- A process that the command does not move stays as it is, however often it is tried. -/
theorem repeated_of_unmoved (standard : d.registry = Registry.standard)
    (quiet : ∀ l ∈ d.listeners, l.Quiet) (stored : s.store.get? c.processId = some old)
    (outside : old.state ∉ c.kind.sources) (n : Nat) :
    (Queue.repeated d.apply c n s).2.store.roster = s.store.roster ∧
      (Queue.repeated d.apply c n s).2.deliveries = s.deliveries ∧
      ∀ a ∈ (Queue.repeated d.apply c n s).1, ∃ outcome, a = .ok outcome := by
  induction n generalizing s with
  | zero => exact ⟨rfl, rfl, by simp [Queue.repeated]⟩
  | succ n ih =>
    have effect := apply_effect standard quiet stored
    rw [Queue.repeated]
    rcases attempt : d.apply s c with ⟨answer, mid⟩
    rw [attempt] at effect
    cases effect with
    | moved source _ _ _ _ _ _ => exact absurd source outside
    | @none outcome _ rows untold _ =>
      have found : mid.store.get? c.processId = some old := by
        rw [Store.get?, rows]
        exact stored
      obtain ⟨rows', untold', answers⟩ := ih found
      refine ⟨rows'.trans rows, untold'.trans untold, ?_⟩
      intro a member
      rcases List.mem_cons.1 member with rfl | later
      · exact ⟨outcome, rfl⟩
      · exact answers a later

/-- Of the attempts at a command, counted from zero, the one numbered `k` found the process `old`
and put `next` in its place: the transition at the time that this attempt read. -/
structure MovedBy (d : Dispatcher) (c : Command) (s : Session) (old : TransferProcess) (k : Nat)
    (next : TransferProcess) : Prop where
  source : old.state ∈ c.kind.sources
  found : (Queue.repeated d.apply c k s).2.store.get? c.processId = some old
  stamped : next = c.moved old (Queue.repeated d.apply c k s).2.clock.now
  wrote : (Queue.repeated d.apply c (k + 1) s).2.store.get? c.processId = some next

/-- Of a number of attempts, one at most has an effect, and it is the only one that is told. -/
theorem repeated_effect (standard : d.registry = Registry.standard)
    (quiet : ∀ l ∈ d.listeners, l.Quiet) (stored : s.store.get? c.processId = some old)
    {failed : List Attempt} {last : Attempt} {after : Session}
    (attempts : Queue.repeated d.apply c (failed.length + 1) s = (failed ++ [last], after))
    (failures : ∀ a ∈ failed, Attempt.isStorageFailure a = true) :
    (after.store.roster = s.store.roster ∧ after.deliveries = s.deliveries ∧
        (∀ p, last = .ok (.success p) → old.state = c.kind.target) ∨
      ∃ k ≤ failed.length, ∃ next heard, d.MovedBy c s old k next ∧
        (∀ x, after.store.get? x = if c.processId = x then some next else s.store.get? x) ∧
        s.Hears heard after ∧
        heard.reverse <+: Session.announcement next old.state 0 d.listeners) ∧
      ∀ i, last = .error i → d.AbortedBy i := by
  induction failed generalizing s with
  | nil =>
    have attempt : d.apply s c = (last, after) := by
      simp only [List.length_nil, Queue.repeated, List.nil_append, Prod.mk.injEq] at attempts
      exact Prod.ext (List.singleton_inj.1 attempts.1) attempts.2
    have effect := apply_effect standard quiet stored
    rw [attempt] at effect
    cases effect with
    | none rows untold there =>
      refine ⟨.inl ⟨rows, untold, fun p success => ?_⟩, by simp⟩
      exact (there p (Except.ok.inj success)).2
    | @moved _ _ heard source rows told part _ _ aborted =>
      have wrote : (Queue.repeated d.apply c 1 s).2.store.get? c.processId =
          some (c.moved old s.clock.now) := by
        change (d.apply s c).2.store.get? c.processId = _
        rw [attempt, rows, if_pos rfl]
      have moved : d.MovedBy c s old 0 (c.moved old s.clock.now) := ⟨source, stored, rfl, wrote⟩
      exact ⟨.inr ⟨0, Nat.le_refl _, _, heard, moved, rows, told, part⟩, aborted⟩
  | cons a rest ih =>
    rcases attempt : d.apply s c with ⟨answer, mid⟩
    have later : ∀ k, (Queue.repeated d.apply c (k + 1) s).2 =
        (Queue.repeated d.apply c k mid).2 := by
      intro k
      rw [Queue.repeated, attempt]
    rw [List.length_cons, Queue.repeated, attempt] at attempts
    simp only [List.cons_append, Prod.mk.injEq, List.cons.injEq] at attempts
    obtain ⟨⟨rfl, answers⟩, ended⟩ := attempts
    have failed := failures answer List.mem_cons_self
    have effect := apply_effect standard quiet stored
    rw [attempt] at effect
    cases effect with
    | none rows untold _ =>
      have found : mid.store.get? c.processId = some old := by
        rw [Store.get?, rows]
        exact stored
      obtain ⟨effect, aborted⟩ := ih found (Prod.ext answers ended)
        fun a member => failures a (List.mem_cons_of_mem _ member)
      refine ⟨?_, aborted⟩
      rcases effect with ⟨rows', untold', there⟩ |
        ⟨k, within, next, heard, moved, rows', told, part⟩
      · exact .inl ⟨rows'.trans rows, untold'.trans untold, there⟩
      · refine .inr ⟨k + 1, Nat.succ_le_succ within, next, heard, ?_, ?_, ?_, part⟩
        · exact ⟨moved.source, (later k).symm ▸ moved.found, (later k).symm ▸ moved.stamped,
            (later (k + 1)).symm ▸ moved.wrote⟩
        · intro x
          rw [rows', Store.get?, rows]
          rfl
        · rw [Session.Hears, ← untold]
          exact told
    | moved source rows told part untold _ _ =>
      obtain rfl := untold failed
      have found : mid.store.get? c.processId = some (c.moved old s.clock.now) := by
        rw [rows, if_pos rfl]
      -- What is left to do is nothing: the process is in the state that the command asks for.
      obtain ⟨same, silent, settled⟩ := repeated_of_unmoved standard quiet found
        c.kind.target_not_mem_sources (rest.length + 1)
      rw [ended] at same silent
      refine ⟨.inr ⟨0, Nat.zero_le _, _, [], ⟨source, stored, rfl, ?_⟩, ?_, ?_, part⟩, ?_⟩
      · rw [later 0]
        exact found
      · intro x
        rw [Store.get?, same]
        exact rows x
      · rw [Session.Hears, silent]
        exact told
      · intro i interrupted
        obtain ⟨outcome, ok⟩ := settled last (by rw [answers]; simp)
        rw [interrupted] at ok
        cases ok

end Dispatcher

namespace Engine

/-- However the calls of the storage end, a command leaves the stored process as it was, or as one
transition makes it that one of its attempts stamped; all other rows stay, one change at most is
told, and a command that counts as processed has brought the process to its target. -/
theorem effect_at_most_once {e : Engine} (standard : e.dispatcher.registry = Registry.standard)
    (quiet : ∀ l ∈ e.dispatcher.listeners, l.Quiet) {s : Session} {c : Command}
    {old : TransferProcess} (stored : s.store.get? c.processId = some old) :
    ∃ made, 0 < made ∧ made ≤ e.policy.maxAttempts ∧
      (Queue.repeated e.dispatcher.apply c made s).2 = (e.apply s (.command c)).2 ∧
      ((e.apply s (.command c)).2.store.roster = s.store.roster ∧
          (e.apply s (.command c)).2.deliveries = s.deliveries ∨
        ∃ k < made, ∃ next heard, e.dispatcher.MovedBy c s old k next ∧
          (∃ now, now = (Queue.repeated e.dispatcher.apply c k s).2.clock.now ∧
            c.applyTo old now = .success next ∧ next.updatedAt = now ∧
            next.stateCount.toNat = min (old.stateCount.toNat + 1) 0xFFFFFFFF) ∧
          (∀ x, (e.apply s (.command c)).2.store.get? x =
            if c.processId = x then some next else s.store.get? x) ∧
          s.Hears heard (e.apply s (.command c)).2 ∧
          heard.reverse <+: Session.announcement next old.state 0 e.dispatcher.listeners) ∧
      (∀ tally, (e.apply s (.command c)).1 = .ok tally → 0 < tally.processed →
        ∃ p, (e.apply s (.command c)).2.store.get? c.processId = some p ∧
          p.state = c.kind.target) ∧
      ∀ i, (e.apply s (.command c)).1 = .error i → e.dispatcher.AbortedBy i := by
  have same : e.apply s (.command c) =
      ((Queue.drain e.policy e.dispatcher.apply s [⟨c, 0⟩]).1,
        (Queue.drain e.policy e.dispatcher.apply s [⟨c, 0⟩]).2.2) := rfl
  obtain ⟨failed, last, worked⟩ :=
    Queue.drain_worked e.policy e.dispatcher.apply c e.policy.positive s
  obtain ⟨effect, aborted⟩ :=
    e.dispatcher.repeated_effect standard quiet stored worked.attempts worked.failures
  rw [same]
  have within := worked.within
  refine ⟨failed.length + 1, Nat.succ_pos _, by omega, by rw [worked.attempts], ?_, ?_, ?_⟩
  · rcases effect with ⟨rows, untold, -⟩ | ⟨k, before, next, heard, moved, rows, told, part⟩
    · exact .inl ⟨rows, untold⟩
    · refine .inr ⟨k, Nat.lt_succ_of_le before, next, heard, moved, ⟨_, rfl, ?_⟩, rows, told, part⟩
      rw [moved.stamped]
      exact ⟨Command.applyTo_of_source moved.source, rfl, c.moved_count old _⟩
  · intro tally counted positive
    obtain ⟨p, success⟩ := worked.processed tally counted positive
    rcases effect with ⟨rows, -, there⟩ | ⟨k, -, next, heard, moved, rows, -⟩
    · refine ⟨old, ?_, there p success⟩
      rw [Store.get?, rows]
      exact stored
    · refine ⟨next, by rw [rows, if_pos rfl], ?_⟩
      rw [moved.stamped, Command.moved_state]
  · intro i interrupted
    exact aborted i (worked.interrupted i interrupted)

/-- The second call is a save that is done and reported as failed. -/
def loseSecond (calls : List Call) : Fate :=
  if calls.length = 2 then .unacknowledged (.unavailable "save" "timeout") else .granted

/-- A started process, a storage that loses the first acknowledgement, and a clock that ticks. -/
def ambiguousStart : Session :=
  .start ⟨.ofList [⟨⟨"a"⟩, .started, 2, .ofSeconds 0, none⟩], [], loseSecond⟩
    ⟨fun k => .ofSeconds (10 + k), 0⟩

theorem effect_at_most_once_lost :
    ambiguousStart.store.get? ⟨"a"⟩ = some ⟨⟨"a"⟩, .started, 2, .ofSeconds 0, none⟩ ∧
    (∃ tally : Tally, ((standard .default).apply ambiguousStart
        (.command ⟨⟨"a"⟩, .suspend (some "quota")⟩)).1 = .ok tally ∧ tally = ⟨1, 0, 1, 0⟩) ∧
    ∃ made, 0 < made ∧ made ≤ 3 ∧ ∃ k < made, ∃ next,
      (standard .default).dispatcher.MovedBy ⟨⟨"a"⟩, .suspend (some "quota")⟩ ambiguousStart
        ⟨⟨"a"⟩, .started, 2, .ofSeconds 0, none⟩ k next ∧
      next = ⟨⟨"a"⟩, .suspended, 3, .ofSeconds 10, some "quota"⟩ := by
  have stored : ambiguousStart.store.get? ⟨"a"⟩ =
      some ⟨⟨"a"⟩, .started, 2, .ofSeconds 0, none⟩ := by decide +kernel
  have last : ((standard .default).apply ambiguousStart
      (.command ⟨⟨"a"⟩, .suspend (some "quota")⟩)).2.store.get? ⟨"a"⟩ =
        some ⟨⟨"a"⟩, .suspended, 3, .ofSeconds 10, some "quota"⟩ := by decide +kernel
  have counted : ((standard .default).apply ambiguousStart
      (.command ⟨⟨"a"⟩, .suspend (some "quota")⟩)).1.toOption = some ⟨1, 0, 1, 0⟩ := by
    decide +kernel
  have quiet : ∀ l ∈ (standard .default).dispatcher.listeners, l.Quiet := by
    intro l member
    rw [List.mem_singleton.1 member]
    exact Listener.silent_calm.quiet
  obtain ⟨made, positive, bound, -, effect, -, -⟩ :=
    effect_at_most_once (e := standard .default) rfl quiet
      (c := ⟨⟨"a"⟩, .suspend (some "quota")⟩) stored
  refine ⟨stored, ?_, made, positive, bound, ?_⟩
  · cases result : ((standard .default).apply ambiguousStart
      (.command ⟨⟨"a"⟩, .suspend (some "quota")⟩)).1 with
    | error i =>
      rw [result] at counted
      cases counted
    | ok tally =>
      rw [result] at counted
      exact ⟨tally, rfl, Option.some.inj counted⟩
  · rcases effect with ⟨rows, -⟩ | ⟨k, within, next, heard, moved, -, rows, -⟩
    · rw [Store.get?, rows] at last
      have same := Option.some.inj (last.symm.trans stored)
      cases same
    · rw [rows, if_pos rfl] at last
      exact ⟨k, within, next, moved, Option.some.inj last⟩

end Engine

end TransferLifecycle
