import TransferLifecycle.Proofs.Attempts

set_option autoImplicit false

/- Draining a queue goes in rounds. A round tries, in their order, the commands that the storage
failed in the round before, and there are no more rounds than attempts are allowed. An interruption
ends the draining in the middle of a round. -/
namespace TransferLifecycle

/-- An attempt at a command as the processor makes it: what was handed over, and the answer. -/
structure Trial where
  command : Command
  answer : Attempt

namespace Trial

def isAnswered (t : Trial) : Bool := t.answer.toOption.isSome

def isSuccess (t : Trial) : Bool := t.answer.toOption.any (·.isSuccess)

/-- The storage failed the attempt. -/
def isFailed (t : Trial) : Bool := Attempt.isStorageFailure t.answer

/-- The commands that the storage failed in a round, in their order. -/
def failedOf (round : List Trial) : List Command := (round.filter (·.isFailed)).map (·.command)

theorem failedOf_append (first second : List Trial) :
    failedOf (first ++ second) = failedOf first ++ failedOf second := by
  simp [failedOf]

theorem length_failedOf_le (round : List Trial) : (failedOf round).length ≤ round.length := by
  rw [failedOf, List.length_map]
  exact List.length_filter_le _ _

/-- The first round tries the given commands, and each next round those that the storage failed in
the one before. -/
def Successive : List Command → List (List Trial) → Prop
  | _, [] => True
  | cs, round :: rest => round ≠ [] ∧ round.map (·.command) = cs ∧ Successive (failedOf round) rest

/-- The commands that are to be tried behind the given rounds. -/
def dueAfter : List Command → List (List Trial) → List Command
  | cs, [] => cs
  | _, round :: rest => dueAfter (failedOf round) rest

theorem Successive.length_dueAfter_le {cs : List Command} {rounds : List (List Trial)}
    (successive : Successive cs rounds) : (dueAfter cs rounds).length ≤ cs.length := by
  induction rounds generalizing cs with
  | nil => exact Nat.le_refl _
  | cons round rest ih =>
    obtain ⟨-, rfl, later⟩ := successive
    have fewer := length_failedOf_le round
    have bound := ih later
    rw [dueAfter, List.length_map]
    omega

/-- No round is longer than the first. -/
theorem Successive.length_flatten_le {cs : List Command} {rounds : List (List Trial)}
    (successive : Successive cs rounds) : rounds.flatten.length ≤ cs.length * rounds.length := by
  induction rounds generalizing cs with
  | nil => simp
  | cons round rest ih =>
    obtain ⟨-, rfl, later⟩ := successive
    have fewer := Nat.mul_le_mul_right rest.length (length_failedOf_le round)
    have bound := ih later
    rw [List.flatten_cons, List.length_append, List.length_cons, Nat.mul_succ, List.length_map]
    omega

end Trial

namespace Queue

open Trial (failedOf Successive dueAfter)

variable {σ : Type}

/-- Commands in a queue with as many attempts behind each. -/
def waiting (made : Nat) (cs : List Command) : Queue := cs.map (⟨·, made⟩)

/-- The queue of a processor to which the commands were given one after the other. -/
def enqueued (cs : List Command) : Queue := cs.foldl push []

theorem enqueued_eq_waiting (cs : List Command) : enqueued cs = waiting 0 cs := by
  have pushed : ∀ q : Queue, cs.foldl push q = q ++ waiting 0 cs := by
    induction cs with
    | nil => simp [waiting]
    | cons c rest ih =>
      intro q
      rw [List.foldl_cons, ih, push, requeue, List.append_assoc]
      rfl
  exact pushed []

/-- Keeps a list of the trials beside the state, the newest last. -/
def watched (submit : σ → Command → Attempt × σ) (s : σ × List Trial) (c : Command) :
    Attempt × σ × List Trial :=
  ((submit s.1 c).1, (submit s.1 c).2, s.2 ++ [⟨c, (submit s.1 c).1⟩])

theorem drain_watched (policy : RetryPolicy) (submit : σ → Command → Attempt × σ) (s : σ)
    (q : Queue) (log : List Trial) :
    q.drain policy submit s =
      ((q.drain policy (watched submit) (s, log)).1,
        (q.drain policy (watched submit) (s, log)).2.1,
        (q.drain policy (watched submit) (s, log)).2.2.1) :=
  drain_view policy Prod.fst (fun _ _ => rfl) (s, log) q

section Round

variable (policy : RetryPolicy) {submit : σ → Command → Attempt × σ}

/-- The commands of a round with `made` rounds before it that are tried again. -/
def triedAgain (made : Nat) (round : List Trial) : List Command :=
  if made + 1 < policy.maxAttempts then failedOf round else []

/-- What a trial in a round with `made` rounds before it is counted as. -/
def trialTally (made : Nat) (t : Trial) : Tally :=
  match t.answer with
  | .ok outcome => (policy.judge (made + 1) outcome).tally
  | .error _ => .zero

def roundTally (made : Nat) (round : List Trial) : Tally :=
  round.foldr (fun t total => (trialTally policy made t).add total) .zero

theorem triedAgain_append (made : Nat) (first second : List Trial) :
    triedAgain policy made (first ++ second) =
      triedAgain policy made first ++ triedAgain policy made second := by
  unfold triedAgain
  split
  · exact Trial.failedOf_append first second
  · rfl

/-- A command that was judged goes behind those that wait already, if it is tried again. -/
theorem settle_waiting (made : Nat) (rest back : List Command) (c : Command)
    (outcome : Outcome TransferProcess) :
    settle (waiting made rest ++ waiting (made + 1) back) c (policy.judge (made + 1) outcome) =
      waiting made rest ++
        waiting (made + 1) (back ++ triedAgain policy made [⟨c, .ok outcome⟩]) := by
  cases failed : Attempt.isStorageFailure (.ok outcome) with
  | false =>
    have none : triedAgain policy made [⟨c, .ok outcome⟩] = [] := by
      simp [triedAgain, failedOf, Trial.isFailed, failed]
    rw [RetryPolicy.judge_of_settled failed, none, List.append_nil]
    cases outcome <;> rfl
  | true =>
    cases outcome with
    | success p => cases failed
    | failure f =>
      change f.isRetryable = true at failed
      by_cases left : made + 1 < policy.maxAttempts
      · have again : triedAgain policy made [⟨c, .ok (.failure f)⟩] = [c] := by
          simp [triedAgain, left, failedOf, Trial.isFailed, Attempt.isStorageFailure, failed]
        rw [RetryPolicy.judge_of_again failed left, again]
        simp [settle, requeue, waiting]
      · have none : triedAgain policy made [⟨c, .ok (.failure f)⟩] = [] := by
          simp [triedAgain, left]
        rw [RetryPolicy.judge_of_last failed (by omega), none, List.append_nil]
        rfl

/-- An attempt is made at the first command of a round, and answered. -/
theorem drain_answered (made : Nat) {s after : σ} {c : Command} {outcome : Outcome TransferProcess}
    (attempt : submit s c = (.ok outcome, after)) (log : List Trial) (rest back : List Command) :
    drain policy (watched submit) (s, log) (waiting made (c :: rest) ++ waiting (made + 1) back) =
      let later := drain policy (watched submit) (after, log ++ [⟨c, .ok outcome⟩])
        (waiting made rest ++
          waiting (made + 1) (back ++ triedAgain policy made [⟨c, .ok outcome⟩]))
      (later.1.map (trialTally policy made ⟨c, .ok outcome⟩).add, later.2) := by
  have handed : watched submit (s, log) c = (.ok outcome, after, log ++ [⟨c, .ok outcome⟩]) := by
    simp only [watched, attempt]
  have first : waiting made (c :: rest) ++ waiting (made + 1) back =
      ⟨c, made⟩ :: (waiting made rest ++ waiting (made + 1) back) := rfl
  rw [first, drain_cons_of_ok handed]
  simp only [settle_waiting]
  rfl

/-- The command is gone if the attempt is interrupted. -/
theorem drain_interrupted (made : Nat) {s after : σ} {c : Command} {i : Interruption}
    (attempt : submit s c = (.error i, after)) (log : List Trial) (rest back : List Command) :
    drain policy (watched submit) (s, log) (waiting made (c :: rest) ++ waiting (made + 1) back) =
      (.error i, waiting made rest ++ waiting (made + 1) back,
        (after, log ++ [⟨c, .error i⟩])) := by
  have handed : watched submit (s, log) c = (.error i, after, log ++ [⟨c, .error i⟩]) := by
    simp only [watched, attempt]
  exact drain_cons_of_error handed _

/-- A round is made in full, and behind it wait the commands that are tried again; or it is
interrupted at a command, which is gone, and those behind it still wait. -/
theorem drain_round (made : Nat) (s : σ) (log : List Trial) (batch back : List Command) :
    (∃ round mid, round.map (·.command) = batch ∧ (∀ t ∈ round, t.isAnswered = true) ∧
      drain policy (watched submit) (s, log) (waiting made batch ++ waiting (made + 1) back) =
        let later := drain policy (watched submit) (mid, log ++ round)
          (waiting (made + 1) (back ++ triedAgain policy made round))
        (later.1.map (roundTally policy made round).add, later.2)) ∨
    ∃ front c i behind last, batch = front.map (·.command) ++ c :: behind ∧
      (∀ t ∈ front, t.isAnswered = true) ∧
      drain policy (watched submit) (s, log) (waiting made batch ++ waiting (made + 1) back) =
        (.error i,
          waiting made behind ++ waiting (made + 1) (back ++ triedAgain policy made front),
          (last, log ++ front ++ [⟨c, .error i⟩])) := by
  have none : triedAgain policy made [] = [] := by simp [triedAgain, failedOf]
  -- By the commands of the round that are still to come; `back` grows with those that have failed.
  induction batch generalizing s log back with
  | nil =>
    refine .inl ⟨[], s, rfl, by simp, ?_⟩
    have same : ∀ result : Except Interruption Tally,
        result.map (roundTally policy made []).add = result := by
      intro result
      cases result <;> simp [Except.map, roundTally]
    simp only [none, List.append_nil, same]
    rfl
  | cons c rest ih =>
    rcases attempt : submit s c with ⟨i | outcome, after⟩
    · refine .inr ⟨[], c, i, rest, after, rfl, by simp, ?_⟩
      rw [drain_interrupted policy made attempt, none, List.append_nil, List.append_nil]
    · have step := drain_answered policy made attempt log rest back
      have grows : ∀ more : List Trial,
          back ++ triedAgain policy made [⟨c, .ok outcome⟩] ++ triedAgain policy made more =
            back ++ triedAgain policy made (⟨c, .ok outcome⟩ :: more) := by
        intro more
        rw [List.append_assoc, ← triedAgain_append, List.singleton_append]
      have logs : ∀ more : List Trial,
          log ++ [⟨c, .ok outcome⟩] ++ more = log ++ ⟨c, .ok outcome⟩ :: more := by simp
      rcases ih after (log ++ [⟨c, .ok outcome⟩])
        (back ++ triedAgain policy made [⟨c, .ok outcome⟩]) with
        ⟨round, mid, tried, fine, drained⟩ | ⟨front, d, i, behind, last, split, fine, drained⟩
      · refine .inl ⟨⟨c, .ok outcome⟩ :: round, mid, by rw [List.map_cons, tried],
          List.forall_mem_cons.2 ⟨rfl, fine⟩, ?_⟩
        rw [grows, logs] at drained
        rw [step, drained]
        simp only [roundTally, List.foldr_cons, Tally.map_add_map_add]
      · refine .inr ⟨⟨c, .ok outcome⟩ :: front, d, i, behind, last, by rw [split]; rfl,
          List.forall_mem_cons.2 ⟨rfl, fine⟩, ?_⟩
        rw [grows, logs] at drained
        rw [step, drained]
        rfl

/-- How the trials of a round are counted: each of them as a success, as rejected, to be tried again
or given up. -/
structure RoundCounts (policy : RetryPolicy) (made : Nat) (round : List Trial) (tally : Tally) :
    Prop where
  processed : tally.processed = round.countP (·.isSuccess)
  settled : tally.processed + tally.rejected + (failedOf round).length = round.length
  retried : tally.retried = (triedAgain policy made round).length
  failed : tally.retried + tally.exhausted = (failedOf round).length

theorem RoundCounts.append {made : Nat} {first second : List Trial} {tally tally' : Tally}
    (one : RoundCounts policy made first tally) (two : RoundCounts policy made second tally') :
    RoundCounts policy made (first ++ second) (tally.add tally') := by
  obtain ⟨processed, settled, retried, failed⟩ := one
  obtain ⟨processed', settled', retried', failed'⟩ := two
  refine ⟨?_, ?_, ?_, ?_⟩
  · rw [Tally.add, processed, processed', List.countP_append]
  · rw [Trial.failedOf_append, List.length_append, List.length_append]
    simp only [Tally.add]
    omega
  · rw [triedAgain_append, List.length_append, ← retried, ← retried']
    rfl
  · rw [Trial.failedOf_append, List.length_append]
    simp only [Tally.add]
    omega

theorem trialTally_counts (made : Nat) {t : Trial} (answered : t.isAnswered = true) :
    RoundCounts policy made [t] (trialTally policy made t) := by
  obtain ⟨c, answer⟩ := t
  cases answer with
  | error i => cases answered
  | ok outcome =>
    cases outcome with
    | success p => exact ⟨rfl, rfl, by simp [triedAgain, failedOf, Trial.isFailed,
        Attempt.isStorageFailure, trialTally, RetryPolicy.judge, Status.tally], rfl⟩
    | failure f =>
      have plain : Trial.isSuccess ⟨c, .ok (.failure f)⟩ = false := rfl
      cases again : f.isRetryable with
      | false =>
        have settled : Trial.isFailed ⟨c, .ok (.failure f)⟩ = false := again
        constructor <;> simp [trialTally, RetryPolicy.judge, again, Status.tally, triedAgain,
          failedOf, settled, plain]
      | true =>
        have failed : Trial.isFailed ⟨c, .ok (.failure f)⟩ = true := again
        by_cases left : made + 1 < policy.maxAttempts
        · constructor <;> simp [trialTally, RetryPolicy.judge, again, left, Status.tally,
            triedAgain, failedOf, failed, plain]
        · constructor <;> simp [trialTally, RetryPolicy.judge, again, left, Status.tally,
            triedAgain, failedOf, failed, plain]

theorem roundTally_counts (made : Nat) {round : List Trial}
    (answered : ∀ t ∈ round, t.isAnswered = true) :
    RoundCounts policy made round (roundTally policy made round) := by
  induction round with
  | nil => exact ⟨rfl, rfl, by simp [triedAgain, failedOf, roundTally, Tally.zero], rfl⟩
  | cons t rest ih =>
    have first := trialTally_counts policy made (answered t List.mem_cons_self)
    exact first.append policy (ih fun u member => answered u (List.mem_cons_of_mem _ member))

/-- A run over the commands `cs`, with `made` rounds before it, by its trials, its result and the
queue that it leaves. It goes on until no command is due or all rounds are made; the commands that
are still due then are the ones given up. An interruption drops its command; behind the rest of the
round wait the commands that have failed in it. -/
inductive InRounds (policy : RetryPolicy) (made : Nat) (cs : List Command) :
    List Trial → Except Interruption Tally → Queue → Prop
  | emptied {rounds : List (List Trial)} {tally : Tally} (successive : Successive cs rounds)
      (bound : made + rounds.length ≤ policy.maxAttempts)
      (answered : ∀ t ∈ rounds.flatten, t.isAnswered = true)
      (ended : dueAfter cs rounds = [] ∨ made + rounds.length = policy.maxAttempts)
      (processed : tally.processed = rounds.flatten.countP (·.isSuccess))
      (counted : tally.processed + tally.rejected + tally.exhausted = cs.length)
      (retried : tally.retried = rounds.tail.flatten.length)
      (exhausted : tally.exhausted = (dueAfter cs rounds).length) :
      InRounds policy made cs rounds.flatten (.ok tally) []
  | interrupted {rounds : List (List Trial)} {front : List Trial} {c : Command} {i : Interruption}
      {behind : List Command} (successive : Successive cs rounds)
      (bound : made + rounds.length < policy.maxAttempts)
      (answered : ∀ t ∈ rounds.flatten ++ front, t.isAnswered = true)
      (due : dueAfter cs rounds = front.map (·.command) ++ c :: behind) :
      InRounds policy made cs (rounds.flatten ++ front ++ [⟨c, .error i⟩]) (.error i)
        (waiting (made + rounds.length) behind ++
          waiting (made + rounds.length + 1) (triedAgain policy (made + rounds.length) front))

variable {policy} {made : Nat} {round : List Trial}

/-- The last round that is allowed: what the storage fails in it is given up. -/
theorem InRounds.last (nonempty : round ≠ []) (used : made + 1 = policy.maxAttempts)
    (answered : ∀ t ∈ round, t.isAnswered = true) :
    InRounds policy made (round.map (·.command)) round (.ok (roundTally policy made round)) [] := by
  obtain ⟨processed, settled, retried, failed⟩ := roundTally_counts policy made answered
  have none : triedAgain policy made round = [] := if_neg (by omega)
  rw [none, List.length_nil] at retried
  have single : [round].flatten = round := by simp
  have run : InRounds policy made (round.map (·.command)) [round].flatten
      (.ok (roundTally policy made round)) [] := by
    refine .emptied ⟨nonempty, rfl, trivial⟩ (by simp [used]) (single.symm ▸ answered)
      (.inr used) ?_ ?_ retried ?_
    · rw [single, processed]
    · rw [List.length_map]
      omega
    · change _ = (failedOf round).length
      omega
  rwa [single] at run

/-- A round before others: what the storage fails in it is tried again. -/
theorem InRounds.again {trials : List Trial} {result : Except Interruption Tally} {left : Queue}
    (nonempty : round ≠ []) (more : made + 1 < policy.maxAttempts)
    (answered : ∀ t ∈ round, t.isAnswered = true)
    (later : InRounds policy (made + 1) (failedOf round) trials result left) :
    InRounds policy made (round.map (·.command)) (round ++ trials)
      (result.map (roundTally policy made round).add) left := by
  obtain ⟨processed, settled, retried, failed⟩ := roundTally_counts policy made answered
  have again : triedAgain policy made round = failedOf round := if_pos more
  rw [again] at retried
  cases later with
  | @emptied rounds tally successive bound fine ended processed' counted retried' exhausted =>
    have tries : tally.retried + (failedOf round).length = rounds.flatten.length := by
      cases rounds with
      | nil =>
        have nothing : failedOf round = [] := by
          rcases ended with nothing | used
          · exact nothing
          · rw [List.length_nil] at used
            omega
        rw [retried', nothing]
        rfl
      | cons second rest =>
        rw [retried', ← successive.2.1, List.length_map, List.tail_cons, List.flatten_cons,
          List.length_append, Nat.add_comm]
    have givenUp : (roundTally policy made round).exhausted = 0 := by omega
    rw [← List.flatten_cons]
    refine .emptied ⟨nonempty, rfl, successive⟩ ?_ ?_ ?_ ?_ ?_ ?_ ?_
    · rw [List.length_cons]
      omega
    · intro t member
      rw [List.flatten_cons, List.mem_append] at member
      exact member.elim (answered t) (fine t)
    · refine ended.imp_right fun used => ?_
      rw [List.length_cons]
      omega
    · rw [List.flatten_cons, List.countP_append, ← processed, ← processed']
      rfl
    · rw [List.length_map]
      simp only [Tally.add]
      omega
    · rw [List.tail_cons, ← tries]
      simp only [Tally.add]
      omega
    · rw [Tally.add, givenUp, Nat.zero_add, exhausted]
      rfl
  | @interrupted rounds front c i behind successive bound fine due =>
    have deeper : made + 1 + rounds.length = made + (round :: rounds).length := by
      rw [List.length_cons]
      omega
    rw [← List.append_assoc, ← List.append_assoc, ← List.flatten_cons, deeper]
    refine .interrupted ⟨nonempty, rfl, successive⟩ (deeper ▸ bound) ?_ due
    intro t member
    rw [List.flatten_cons, List.append_assoc, List.mem_append] at member
    exact member.elim (answered t) (fine t)

/-- Commands that wait with `made` attempts behind each are drained in rounds. -/
theorem drain_waiting (policy : RetryPolicy) (submit : σ → Command → Attempt × σ) (made : Nat)
    (s : σ) (log : List Trial) (cs : List Command) (bound : made ≤ policy.maxAttempts)
    (allowed : cs ≠ [] → made < policy.maxAttempts) :
    ∃ trials result left last,
      drain policy (watched submit) (s, log) (waiting made cs) =
        (result, left, (last, log ++ trials)) ∧
      InRounds policy made cs trials result left := by
  -- By the number of rounds that are left.
  induction left : policy.maxAttempts - made using Nat.strongRecOn
    generalizing made s log cs with
  | ind left ih =>
    by_cases empty : cs = []
    · subst empty
      refine ⟨[], .ok .zero, [], s, by rw [List.append_nil]; exact drain_nil _ _ _, ?_⟩
      have rounds : Successive [] [] := trivial
      exact .emptied rounds bound (by simp) (.inl rfl) rfl rfl rfl rfl
    · have room := allowed empty
      rcases @drain_round σ policy submit made s log cs [] with
        ⟨round, mid, rfl, answered, drained⟩ | ⟨front, c, i, behind, last, rfl, answered, drained⟩
      · have nonempty : round ≠ [] := fun nothing => empty (by rw [nothing]; rfl)
        by_cases more : made + 1 < policy.maxAttempts
        · have again : triedAgain policy made round = failedOf round := if_pos more
          obtain ⟨trials, result, rest, last, later, run⟩ := ih (policy.maxAttempts - (made + 1))
            (by omega) (made + 1) mid (log ++ round) (failedOf round)
            (Nat.le_of_lt more) (fun _ => more) rfl
          refine ⟨round ++ trials, _, rest, last, ?_, run.again nonempty more answered⟩
          simp only [waiting, List.map_nil, List.append_nil, List.nil_append] at drained
          simp only [waiting] at later ⊢
          rw [drained, again, later, List.append_assoc]
        · have none : triedAgain policy made round = [] := if_neg more
          refine ⟨round, _, [], mid, ?_, .last nonempty (by omega) answered⟩
          simp only [waiting, List.map_nil, List.append_nil, none, drain_nil] at drained
          simp only [waiting]
          rw [drained]
          simp only [Except.map, Tally.add_zero]
      · have rounds : Successive (front.map (·.command) ++ c :: behind) [] := trivial
        refine ⟨front ++ [⟨c, .error i⟩], _, _, last, ?_, .interrupted rounds room answered rfl⟩
        simp only [waiting, List.map_nil, List.append_nil, List.nil_append] at drained
        simp only [waiting, List.length_nil, Nat.add_zero]
        rw [drained, List.append_assoc]

theorem InRounds.length_le {trials : List Trial} {result : Except Interruption Tally} {left : Queue}
    {cs : List Command} (run : InRounds policy made cs trials result left) :
    trials.length ≤ cs.length * (policy.maxAttempts - made) := by
  cases run with
  | @emptied rounds tally successive bound =>
    have rest := Nat.mul_le_mul_left cs.length (Nat.le_sub_of_add_le' bound)
    exact Nat.le_trans successive.length_flatten_le rest
  | @interrupted rounds front c i behind successive bound _ due =>
    -- The round that is interrupted is no longer than the first, too.
    have first := successive.length_dueAfter_le
    rw [due, List.length_append, List.length_map, List.length_cons] at first
    have whole := successive.length_flatten_le
    have rest : cs.length * (rounds.length + 1) ≤ cs.length * (policy.maxAttempts - made) :=
      Nat.mul_le_mul_left cs.length (by omega)
    rw [Nat.mul_succ] at rest
    rw [List.length_append, List.length_append, List.length_singleton]
    omega

/-- An attempt is left for every command that waits. -/
def HasAttempts (policy : RetryPolicy) (q : Queue) : Prop :=
  ∀ item ∈ q, item.attempts + 1 ≤ policy.maxAttempts

theorem HasAttempts.waiting (cs : List Command) : HasAttempts policy (waiting 0 cs) := by
  intro item member
  obtain ⟨c, -, rfl⟩ := List.mem_map.1 member
  exact policy.positive

theorem HasAttempts.settle {rest : Queue} (kept : HasAttempts policy rest) (c : Command)
    (attempts : Nat) (outcome : Outcome TransferProcess) :
    HasAttempts policy (settle rest c (policy.judge attempts outcome)) := by
  unfold RetryPolicy.judge
  split
  next => exact kept
  next =>
    split
    next => exact kept
    next =>
      split
      next more =>
        intro item member
        rcases List.mem_append.1 member with earlier | new
        · exact kept item earlier
        · rw [List.mem_singleton] at new
          rw [new]
          exact more
      next => exact kept

theorem HasAttempts.processNext {q : Queue} (kept : HasAttempts policy q) (s : σ) :
    HasAttempts policy (q.processNext policy submit s).2.1 := by
  cases q with
  | nil => exact kept
  | cons item rest =>
    have behind : HasAttempts policy rest := fun other member =>
      kept other (List.mem_cons_of_mem _ member)
    rcases attempt : submit s item.command with ⟨_ | outcome, after⟩
    · simpa only [Queue.processNext, attempt] using behind
    · simpa only [Queue.processNext, attempt] using behind.settle item.command _ outcome

/-- What a processor gets to from `s` and `start`, by one attempt after the other. -/
inductive Reached (policy : RetryPolicy) (submit : σ → Command → Attempt × σ) (s : σ)
    (start : Queue) : σ → Queue → Prop
  | start : Reached policy submit s start s start
  | next {mid : σ} {q : Queue} (earlier : Reached policy submit s start mid q) :
      Reached policy submit s start (q.processNext policy submit mid).2.2
        (q.processNext policy submit mid).2.1

theorem Reached.hasAttempts {s after : σ} {start q : Queue} (kept : HasAttempts policy start)
    (reached : Reached policy submit s start after q) : HasAttempts policy q := by
  induction reached with
  | start => exact kept
  | next _ ih => exact ih.processNext _

end Round

/-- Draining a queue of commands ends, and goes in rounds: the commands handed over are those of
the rounds, one after the other, no more than each command has attempts. The result and the queue
that is left are those of a run in rounds, and no count of attempts passes the allowed number. -/
theorem drain_in_rounds (policy : RetryPolicy) (submit : σ → Command → Attempt × σ) (s : σ)
    (cs : List Command) :
    ∃ trials result left last,
      (enqueued cs).drain policy (watched submit) (s, []) = (result, left, (last, trials)) ∧
      (enqueued cs).drain policy submit s = (result, left, last) ∧
      InRounds policy 0 cs trials result left ∧
      trials.length ≤ cs.length * policy.maxAttempts ∧
      ∀ after q, Reached policy submit s (enqueued cs) after q → HasAttempts policy q := by
  obtain ⟨trials, result, left, last, drained, run⟩ :=
    drain_waiting policy submit 0 s [] cs (Nat.zero_le _) (fun _ => policy.positive)
  rw [← enqueued_eq_waiting, List.nil_append] at drained
  have plain := drain_watched policy submit s (enqueued cs) []
  rw [drained] at plain
  refine ⟨trials, result, left, last, drained, plain, run, run.length_le, ?_⟩
  intro after q reached
  rw [enqueued_eq_waiting] at reached
  exact reached.hasAttempts (.waiting cs)

end Queue

end TransferLifecycle
