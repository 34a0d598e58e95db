import Propagation.Proofs.World
import Propagation.Store.Scope

/-!
# All or nothing

A scope runs a body in a transaction. If the body succeeds and the transaction can be committed, the
records that it wrote and the messages that it queued are added to what the body left; otherwise
nothing is. A serialized scope starts again after a conflict, whether the body reports it or the
commit meets it, and stops at anything else.

A body may use the store in any way, so what others do while it runs is part of what it leaves. What
they do between two attempts is a parameter here. Which calls a scope makes of its body is told by a
body that keeps a diary.

## Main definitions

* `Scope.Attempt`: a call of a body with all that it got and gave back.
* `Scope.Body.recorded`: a body that keeps a diary of its calls.
* `Scope.serializedAmid`: a serialized scope, where others act before each attempt.
* `Scope.Course`: how the attempts of a scope follow each other.
* `Scope.AllOrNothing`: what an answer says about what has changed.

## Main statements

* `Scope.once_apply`: what becomes of one attempt.
* `Scope.course_retryAmid`: a serialized scope takes a course, and its diary tells of it.
* `Scope.Course.exhausted_iff`: when attempts are given up.
* `Scope.all_or_nothing`: what a scope calls, answers and changes.
-/

namespace Propagation

namespace Scope

variable {σ δ α : Type}

/-! ## Attempts -/

/-- A call of a body of type `Body σ α` with all that it got and gave back. -/
structure Attempt (σ α : Type) where
  /-- The transaction that has begun. -/
  start : Transaction
  /-- What the body finds: the store and the state beside it. -/
  found : Store × σ
  /-- What the body answers. -/
  answer : Except Error α
  /-- The transaction that the body gives back. -/
  tx : Transaction
  /-- What the body leaves, with all that others did meanwhile. -/
  left : Store × σ

/-- Call `body` with the transaction `start`, where there is what was `found`. -/
def Body.call (body : Body σ α) (start : Transaction) (found : Store × σ) : Attempt σ α :=
  let ((answer, tx), left) := body start found
  { start, found, answer, tx, left }

/-- Call `body` with a new transaction. -/
def attempt (mode : TxMode) (isolation : Isolation) (body : Body σ α) (s : Store × σ) :
    Attempt σ α :=
  let (start, store) := s.1.begin mode isolation
  body.call start (store, s.2)

namespace Attempt

/-- How the attempt `a` ends: with the error of the body, or as its commit does. -/
def outcome (a : Attempt σ α) : Except Error α :=
  match a.answer with
  | .error e => .error e
  | .ok v => (a.left.1.commit a.tx).1.map fun () => v

/-- What there is when the attempt `a` has ended. -/
def ended (a : Attempt σ α) : Store × σ :=
  match a.answer with
  | .error _ => a.left
  | .ok _ => ((a.left.1.commit a.tx).2, a.left.2)

/-- Whether the attempt `a` ends in a conflict. -/
def conflicts (a : Attempt σ α) : Bool :=
  match a.outcome with
  | .error e => e.isConflict
  | .ok _ => false

/-- What there is after a commit that nothing hindered: what the body has `left`, with the records
that the transaction wrote and with its messages. -/
def added (a : Attempt σ α) : Store × σ :=
  (Store.publish a.tx.outbox { a.left.1 with committed := a.left.1.committed.apply a.tx }, a.left.2)

/-- An attempt that fails leaves what it has `left`, and one that succeeds leaves what it has
`added`. -/
theorem outcome_cases (a : Attempt σ α) :
    (∃ e, a.outcome = .error e ∧ a.ended = a.left) ∨
      ∃ v, a.answer = .ok v ∧ a.outcome = .ok v ∧ a.ended = a.added := by
  cases hanswer : a.answer with
  | error e =>
    refine .inl ⟨e, ?_, ?_⟩
    · rw [outcome, hanswer]
    · rw [ended, hanswer]
  | ok v =>
    cases hc : a.left.1.conflicts a.tx with
    | true =>
      refine .inl ⟨.conflict a.tx.id, ?_, ?_⟩
      · rw [outcome, hanswer, Store.commit_of_conflicts hc]
        rfl
      · rw [ended, hanswer, Store.commit_of_conflicts hc]
    | false =>
      refine .inr ⟨v, rfl, ?_, ?_⟩
      · rw [outcome, hanswer, Store.commit_of_not_conflicts hc]
        rfl
      · rw [ended, hanswer, Store.commit_of_not_conflicts hc]
        rfl

/-- An attempt that ends in a conflict leaves what the body has `left`. -/
theorem ended_of_conflicts {a : Attempt σ α} (h : a.conflicts) : a.ended = a.left := by
  obtain ⟨e, -, hended⟩ | ⟨v, -, houtcome, -⟩ := a.outcome_cases
  · exact hended
  · rw [conflicts, houtcome] at h
    cases h

end Attempt

theorem bind_apply {β γ : Type} (m : Scope σ β) (f : β → Scope σ γ) (s : Store × σ) :
    (m >>= f) s = f (m s).1 (m s).2 := rfl

theorem onStore_apply {β : Type} (f : Store → β × Store) (s : Store × σ) :
    onStore f s = ((f s.1).1, (f s.1).2, s.2) := rfl

/-- To run a body `once` is to make one attempt. -/
theorem once_apply (mode : TxMode) (isolation : Isolation) (body : Body σ α) (s : Store × σ) :
    once mode isolation body s =
      ((attempt mode isolation body s).outcome, (attempt mode isolation body s).ended) := by
  rw [once, bind_apply, bind_apply, onStore_apply]
  dsimp only [attempt, Body.call]
  generalize body (s.1.begin mode isolation).1 ((s.1.begin mode isolation).2, s.2) = result
  obtain ⟨⟨answer, tx⟩, left⟩ := result
  rw [Attempt.outcome, Attempt.ended]
  cases answer with
  | error e => rfl
  | ok v =>
    dsimp only
    rw [bind_apply, onStore_apply]
    dsimp only
    cases (left.1.commit tx).1 <;> rfl

/-! ## Diaries -/

/-- What `others` do, where there is something else beside what they act on. -/
def beside (others : Store × σ → Store × σ) : Store × σ × δ → Store × σ × δ :=
  fun (store, rest, d) => ((others (store, rest)).1, (others (store, rest)).2, d)

/-- The body `body`, which also keeps a diary of its calls. -/
def Body.recorded (body : Body σ α) : Body (σ × List (Attempt σ α)) α :=
  fun tx (store, rest, diary) =>
    let a := body.call tx (store, rest)
    ((a.answer, a.tx), a.left.1, a.left.2, diary ++ [a])

section Diary

variable (mode : TxMode) (isolation : Isolation) (body : Body σ α) (s : Store × σ)
  (diary : List (Attempt σ α))

/-- A body that is `recorded` has the outcome that it would have without a diary. -/
theorem outcome_recorded :
    (attempt mode isolation body.recorded (s.1, s.2, diary)).outcome =
      (attempt mode isolation body s).outcome := rfl

/-- What a body that is `recorded` leaves is what it would leave without a diary, and an entry. -/
theorem ended_recorded :
    (attempt mode isolation body.recorded (s.1, s.2, diary)).ended =
      ((attempt mode isolation body s).ended.1, (attempt mode isolation body s).ended.2,
        diary ++ [attempt mode isolation body s]) := by
  change (match (attempt mode isolation body s).answer with
    | .error _ => _
    | .ok _ => _) = _
  rw [Attempt.ended]
  cases (attempt mode isolation body s).answer <;> rfl

theorem conflicts_recorded :
    (attempt mode isolation body.recorded (s.1, s.2, diary)).conflicts =
      (attempt mode isolation body s).conflicts := rfl

end Diary

/-! ## One attempt after the other -/

/-- Run a body in serializable transactions until one ends without a conflict, at most `attempts`
times, where others act before each of them. -/
def retryAmid (others : Store × σ → Store × σ) (body : Body σ α) (exhausted : Error) :
    (attempts : Nat) → Scope σ (Except Error α)
  | 0 => return .error exhausted
  | attempts + 1 => do
    modify others
    match ← once .readWrite .serializable body with
    | .error e =>
      if e.isConflict then retryAmid others body exhausted attempts else return .error e
    | .ok a => return .ok a

/-- Run `body` as often as `policy` allows, where `others` act before each attempt. -/
def serializedAmid (others : Store × σ → Store × σ) (policy : RetryPolicy) (body : Body σ α) :
    Scope σ (Except Error α) :=
  retryAmid others body (.exhausted policy.maxAttempts) policy.maxAttempts.toNat

/-- Where nobody acts between the attempts, `retryAmid` does what `retry` does. -/
theorem retryAmid_id (body : Body σ α) (exhausted : Error) (n : Nat) :
    retryAmid id body exhausted n = retry body exhausted n := by
  induction n with
  | zero => rfl
  | succ n ih =>
    rw [retryAmid, retry, ← ih]
    rfl

variable {others : Store × σ → Store × σ} {body : Body σ α} {exhausted : Error}

/-- After a conflict `retryAmid` starts again, and after anything else it stops. -/
theorem retryAmid_succ (others : Store × σ → Store × σ) (body : Body σ α) (exhausted : Error)
    (n : Nat) (s : Store × σ) :
    let a := attempt .readWrite .serializable body (others s)
    retryAmid others body exhausted (n + 1) s =
      if a.conflicts then retryAmid others body exhausted n a.ended else (a.outcome, a.ended) := by
  intro a
  have hmodify : (modify others : Scope σ PUnit) s = (⟨⟩, others s) := rfl
  rw [retryAmid, bind_apply, bind_apply, hmodify, once_apply, Attempt.conflicts]
  dsimp only
  cases a.outcome with
  | error e => exact apply_ite (fun scope : Scope σ (Except Error α) => scope a.ended) _ _ _
  | ok v => rfl

/-- How the attempts of a scope follow each other: `others` act, `body` is called, and what it left
is where the next attempt begins. The last two arguments are the answer of the scope and what there
is at its end; before them stands what the last call left. -/
inductive Course (others : Store × σ → Store × σ) (body : Body σ α) (exhausted : Error) :
    Nat → Store × σ → List (Attempt σ α) → Store × σ → Except Error α → Store × σ → Prop
  /-- No attempts are left. -/
  | spent (s : Store × σ) : Course others body exhausted 0 s [] s (.error exhausted) s
  /-- An attempt ends in a conflict. -/
  | again {n : Nat} {s left final : Store × σ} {a : Attempt σ α} {calls : List (Attempt σ α)}
      {answer : Except Error α} (call : a = attempt .readWrite .serializable body (others s))
      (conflict : a.conflicts)
      (rest : Course others body exhausted n a.left calls left answer final) :
      Course others body exhausted (n + 1) s (a :: calls) left answer final
  /-- An attempt ends without a conflict. -/
  | stop {n : Nat} {s : Store × σ} {a : Attempt σ α}
      (call : a = attempt .readWrite .serializable body (others s))
      (settled : a.conflicts = false) :
      Course others body exhausted (n + 1) s [a] a.left a.outcome a.ended

/-- What `retryAmid` does is a `Course`, and the diary of the body tells of it. -/
theorem course_retryAmid (others : Store × σ → Store × σ) (body : Body σ α) (exhausted : Error)
    (n : Nat) (s : Store × σ) : ∃ calls left answer final,
      Course others body exhausted n s calls left answer final ∧
      retryAmid others body exhausted n s = (answer, final) ∧
      ∀ diary, retryAmid (beside others) body.recorded exhausted n (s.1, s.2, diary) =
        (answer, final.1, final.2, diary ++ calls) := by
  -- What others did before an attempt is in its `found`, so the rest begins in what it left.
  induction n generalizing s with
  | zero => exact ⟨[], s, _, s, .spent s, rfl, fun diary => by rw [List.append_nil]; rfl⟩
  | succ n ih =>
    let a := attempt .readWrite .serializable body (others s)
    have hrecorded (diary : List (Attempt σ α)) :=
      retryAmid_succ (beside others) body.recorded exhausted n (s.1, s.2, diary)
    simp only [beside, outcome_recorded, ended_recorded, conflicts_recorded] at hrecorded
    cases hc : a.conflicts with
    | true =>
      obtain ⟨calls, left, answer, final, hcourse, hrun, hdiary⟩ := ih a.left
      refine ⟨a :: calls, left, answer, final, .again rfl hc hcourse, ?_, fun diary => ?_⟩
      · rw [retryAmid_succ, if_pos hc, Attempt.ended_of_conflicts hc, hrun]
      · rw [hrecorded, if_pos hc, Attempt.ended_of_conflicts hc, hdiary, List.append_assoc]
        rfl
    | false =>
      have hnot : ¬ a.conflicts = true := by rw [hc]; exact Bool.false_ne_true
      refine ⟨[a], a.left, a.outcome, a.ended, .stop rfl hc, ?_, fun diary => ?_⟩
      · rw [retryAmid_succ, if_neg hnot]
      · rw [hrecorded, if_neg hnot]

/-! ## What a course tells -/

/-- The calls are attempts of `body`, of which each begins in what the one before it left, after
`others` have acted. -/
def Follow (others : Store × σ → Store × σ) (body : Body σ α) :
    Store × σ → List (Attempt σ α) → Store × σ → Prop
  | s, [], left => left = s
  | s, a :: calls, left =>
    a = attempt .readWrite .serializable body (others s) ∧ Follow others body a.left calls left

/-- What `answer` says about what has changed since the last of `calls` has `left` the store:
nothing after an error, and otherwise the records and messages of the last call are added. -/
def AllOrNothing (calls : List (Attempt σ α)) (left : Store × σ) (answer : Except Error α)
    (final : Store × σ) : Prop :=
  match answer with
  | .error _ => final = left
  | .ok v => ∃ a ∈ calls.getLast?, a.answer = .ok v ∧ a.left = left ∧ final = a.added

/-- An attempt adds all of its records and messages or none, as its outcome says. -/
theorem Attempt.allOrNothing (a : Attempt σ α) : AllOrNothing [a] a.left a.outcome a.ended := by
  obtain ⟨e, houtcome, hended⟩ | ⟨v, hanswer, houtcome, hended⟩ := a.outcome_cases
  · rw [houtcome, hended]
    exact rfl
  · rw [houtcome, hended]
    exact ⟨a, rfl, hanswer, rfl, rfl⟩

namespace Course

variable {others : Store × σ → Store × σ} {body : Body σ α} {exhausted : Error} {n : Nat}
  {s left final : Store × σ} {calls : List (Attempt σ α)} {answer : Except Error α}

theorem follow (h : Course others body exhausted n s calls left answer final) :
    Follow others body s calls left := by
  induction h with
  | spent s => exact rfl
  | again call conflict rest ih => exact ⟨call, ih⟩
  | stop call settled => exact ⟨call, rfl⟩

/-- Attempts are made until one ends without a conflict, which is the `answer`, or `n` of them were
made. -/
theorem answer_cases (h : Course others body exhausted n s calls left answer final) :
    (calls.length = n ∧ (∀ a ∈ calls, a.conflicts) ∧ answer = .error exhausted) ∨
      ∃ before a, calls = before ++ [a] ∧ before.length < n ∧ (∀ b ∈ before, b.conflicts) ∧
        a.conflicts = false ∧ answer = a.outcome := by
  induction h with
  | spent s => exact .inl ⟨rfl, by simp, rfl⟩
  | @again n s left final a calls answer call conflict rest ih =>
    obtain ⟨hlength, hall, hanswer⟩ | ⟨before, b, rfl, hlength, hall, hsettled, hanswer⟩ := ih
    · exact .inl ⟨by rw [List.length_cons, hlength],
        List.forall_mem_cons.2 ⟨conflict, hall⟩, hanswer⟩
    · exact .inr ⟨a :: before, b, rfl, Nat.succ_lt_succ hlength,
        List.forall_mem_cons.2 ⟨conflict, hall⟩, hsettled, hanswer⟩
  | @stop n s a call settled =>
    exact .inr ⟨[], a, rfl, Nat.succ_pos n, by simp, settled, rfl⟩

/-- The `answer` is `exhausted` if all attempts ended in a conflict, or if the last one ended with
just that error. -/
theorem exhausted_iff (h : Course others body exhausted n s calls left answer final) :
    answer = .error exhausted ↔
      (calls.length = n ∧ ∀ a ∈ calls, a.conflicts) ∨
        ∃ a ∈ calls.getLast?, a.outcome = .error exhausted := by
  obtain ⟨hlength, hall, rfl⟩ | ⟨before, a, rfl, -, -, hsettled, rfl⟩ := h.answer_cases
  · exact iff_of_true rfl (.inl ⟨hlength, hall⟩)
  · have hlast : (before ++ [a]).getLast? = some a := List.getLast?_concat
    rw [hlast]
    refine ⟨fun houtcome => .inr ⟨a, rfl, houtcome⟩, ?_⟩
    rintro (⟨-, hall⟩ | ⟨b, hb, houtcome⟩)
    · have hconflicts := hall a (List.mem_append_right _ (List.mem_singleton_self a))
      rw [hsettled] at hconflicts
      cases hconflicts
    · cases hb
      exact houtcome

/-- In a `Course` of at most `n` attempts there are no more calls. -/
theorem length_le (h : Course others body exhausted n s calls left answer final) :
    calls.length ≤ n := by
  obtain ⟨hlength, -⟩ | ⟨before, a, rfl, hlength, -⟩ := h.answer_cases
  · exact Nat.le_of_eq hlength
  · rw [List.length_append]
    exact hlength

/-- All of the records and messages of the last call are added or none, as `answer` says. -/
theorem allOrNothing (h : Course others body exhausted n s calls left answer final) :
    AllOrNothing calls left answer final := by
  induction h with
  | spent s => exact rfl
  | @again n s left final a calls answer call conflict rest ih =>
    cases answer with
    | error e => exact ih
    | ok v =>
      obtain ⟨b, hb, hadded⟩ := ih
      refine ⟨b, ?_, hadded⟩
      rw [Option.mem_def] at hb ⊢
      rw [List.getLast?_cons, hb]
      rfl
  | @stop n s a call settled => exact a.allOrNothing

end Course

/-- A serialized scope calls its body at most as often as the policy allows. Each call but the last
one ends in a conflict; the outcome of the first one that does not is the answer, and if there is
none, the attempts are reported as exhausted. A body can itself end with that report, which is then
the answer, as any outcome is that is not a conflict. What others do while the body runs is part of
what it leaves, and what they do between two attempts is `others`. Nothing else changes, unless the
answer is a success: then exactly the records and the messages of the last call are added. A single
transaction is one such attempt. -/
theorem all_or_nothing (body : Body σ α) (s : Store × σ) :
    (∀ (others : Store × σ → Store × σ) (policy : RetryPolicy), ∃ calls left answer final,
      serializedAmid others policy body s = (answer, final) ∧
      serializedAmid (beside others) policy body.recorded (s.1, s.2, []) =
        (answer, final.1, final.2, calls) ∧
      Follow others body s calls left ∧
      calls.length ≤ policy.maxAttempts.toNat ∧
      (calls.length = policy.maxAttempts.toNat ∧ (∀ a ∈ calls, a.conflicts) ∨
        ∃ before a, calls = before ++ [a] ∧ (∀ b ∈ before, b.conflicts) ∧
          a.conflicts = false ∧ answer = a.outcome) ∧
      (answer = .error (.exhausted policy.maxAttempts) ↔
        (calls.length = policy.maxAttempts.toNat ∧ ∀ a ∈ calls, a.conflicts) ∨
          ∃ a ∈ calls.getLast?, a.outcome = .error (.exhausted policy.maxAttempts)) ∧
      AllOrNothing calls left answer final) ∧
    (∀ policy, serializedAmid id policy body = serialized policy body) ∧
    ∀ mode,
      let a := attempt mode .readCommitted body s
      single mode body s = (a.outcome, a.ended) ∧
      single mode body.recorded (s.1, s.2, []) = (a.outcome, a.ended.1, a.ended.2, [a]) ∧
      AllOrNothing [a] a.left a.outcome a.ended := by
  refine ⟨fun others policy => ?_, fun policy => retryAmid_id _ _ _, fun mode => ⟨?_, ?_, ?_⟩⟩
  · obtain ⟨calls, left, answer, final, hcourse, hrun, hdiary⟩ := course_retryAmid others body
      (.exhausted policy.maxAttempts) policy.maxAttempts.toNat s
    refine ⟨calls, left, answer, final, hrun, hdiary [], hcourse.follow, hcourse.length_le, ?_,
      hcourse.exhausted_iff, hcourse.allOrNothing⟩
    obtain ⟨hlength, hall, -⟩ | ⟨before, a, hcalls, -, hlast⟩ := hcourse.answer_cases
    · exact .inl ⟨hlength, hall⟩
    · exact .inr ⟨before, a, hcalls, hlast⟩
  · exact once_apply mode .readCommitted body s
  · rw [single, once_apply, outcome_recorded, ended_recorded]
    rfl
  · exact Attempt.allOrNothing _

/-- A body with a serialized scope of its own, in which every attempt is said to meet a conflict. -/
def nested : Body Unit Unit := fun tx => return (← serialized ⟨2⟩ busy, tx)
where
  busy : Body Unit Unit := fun tx => return (.error (.reported .conflict "busy"), tx)

/-- The attempts of `nested` are reported as exhausted where there was one, which did not end in a
conflict. -/
theorem exhausted_nested :
    let run := serialized ⟨2⟩ nested.recorded (({ mint := .still } : Store), (), [])
    run.1 = .error (.exhausted 2) ∧ run.2.2.2.map Attempt.conflicts = [false] := ⟨rfl, rfl⟩

end Scope

end Propagation
