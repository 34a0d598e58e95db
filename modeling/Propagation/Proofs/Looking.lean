import Propagation.Proofs.Request
import Propagation.Operation

/-!
# Computations that only look

To look up records and to search tables changes nothing in a transaction but its accounts of both.
A computation that does no more answers what the view determines, and any two such computations can
be put together without a thought for what the first one leaves behind.

## Main definitions

* `Transaction.Noted`: a transaction in which nothing has happened but that more was noted.
* `Access.Answers`: a computation that gives this answer and does no more than to note.

## Main statements

* `Access.Answers.bind`, `Access.Answers.foldlM`, `Access.Answers.mapM`: such computations may be
  put together.
* `Access.answers_require`, `Access.answers_vectors` and siblings: what looking up and searching
  answers.
* `Access.Answers.op`: the same as operations, which leave the mint alone.
-/

namespace Propagation

namespace Transaction

/-- Nothing has happened from `tx` to `tx'` but that more was looked up and searched. -/
def Noted (tx tx' : Transaction) : Prop :=
  tx' = { tx with reads := tx'.reads, scans := tx'.scans }

namespace Noted

variable {tx tx' tx'' : Transaction}

theorem refl (tx : Transaction) : tx.Noted tx := rfl

theorem trans (h : tx.Noted tx') (h' : tx'.Noted tx'') : tx.Noted tx'' := by
  rw [Noted, h', h]

theorem view_eq (h : tx.Noted tx') : tx'.view = tx.view := (congrArg view h :)

theorem read (k : Key) (tx : Transaction) : tx.Noted (tx.noteRead k) := rfl

theorem scan (e : Entity) (tx : Transaction) : tx.Noted (tx.noteScan e) := rfl

/-- A search of one table, and of a second one if need be. -/
theorem scans (c : Bool) (d e : Entity) (tx : Transaction) :
    tx.Noted (if c then (tx.noteScan d).noteScan e else tx.noteScan d) := by
  cases c <;> exact rfl

end Noted

end Transaction

namespace Access

variable {α β : Type} {tx : Transaction}

/-- The computation answers `r`, and does no more than to look up and to search. -/
structure Answers (a : Access α) (tx : Transaction) (r : Except Error α) : Prop where
  outcome : outcome (a tx) = r
  noted : tx.Noted (final (a tx))

/-- If `a` answers `r`, a run of `a` that succeeds gives `r`. -/
theorem Answers.of_ok {a : Access α} {r : Except Error α} (h : a.Answers tx r) {v : α}
    {tx' : Transaction} (hrun : a tx = .ok v tx') : r = .ok v ∧ tx.Noted tx' := by
  obtain ⟨rfl, hnoted⟩ := h
  rw [hrun] at hnoted ⊢
  exact ⟨rfl, hnoted⟩

/-! ## Putting computations together -/

theorem Answers.pure (v : α) (tx : Transaction) :
    (Pure.pure v : Access α).Answers tx (.ok v) := ⟨rfl, .refl tx⟩

theorem Answers.throw (e : Error) (tx : Transaction) :
    (MonadExcept.throw e : Access α).Answers tx (.error e) := ⟨rfl, .refl tx⟩

theorem Answers.ofExcept (r : Except Error α) (tx : Transaction) :
    (MonadExcept.ofExcept r : Access α).Answers tx r := by
  cases r with
  | error e => exact .throw e tx
  | ok v => exact .pure v tx

/-- If `a` answers, what follows it as `f` finds the same view. -/
theorem Answers.bind {a : Access α} {f : α → Access β} {r : Except Error α}
    {g : α → Except Error β} (ha : a.Answers tx r)
    (hf : ∀ v tx', r = .ok v → tx.Noted tx' → (f v).Answers tx' (g v)) :
    (a >>= f).Answers tx (r >>= g) := by
  obtain ⟨rfl, hnoted⟩ := ha
  have hbind : (a >>= f) tx = EStateM.bind a f tx := rfl
  rw [EStateM.bind] at hbind
  cases h : a tx with
  | error e tx' =>
    rw [h] at hnoted hbind
    exact ⟨by rw [hbind]; rfl, by rw [hbind]; exact hnoted⟩
  | ok v tx' =>
    rw [h] at hf hnoted hbind
    obtain ⟨hanswer, hnoted'⟩ := hf v tx' rfl hnoted
    exact ⟨by rw [hbind]; exact hanswer, by rw [hbind]; exact hnoted.trans hnoted'⟩

/-- If `a` answers `v`, then what follows it is `f v`. -/
theorem Answers.bind_of_ok {a : Access α} {f : α → Access β} {v : α} {r : Except Error β}
    (ha : a.Answers tx (.ok v)) (hf : ∀ tx', tx.Noted tx' → (f v).Answers tx' r) :
    (a >>= f).Answers tx r := by
  refine ha.bind (g := fun _ => r) fun u tx' hu hnoted => ?_
  cases hu
  exact hf tx' hnoted

/-- What `g` makes of the answer afterwards needs no transaction. -/
theorem Answers.map {a : Access α} {r : Except Error α} (ha : a.Answers tx r) (g : α → β) :
    (do return g (← a) : Access β).Answers tx (r.map g) := by
  have hmap : r.map g = r >>= fun v => .ok (g v) := by cases r <;> rfl
  rw [hmap]
  exact ha.bind fun v tx' _ _ => .pure (g v) tx'

theorem Answers.foldlM {f : β → α → Access β} {g : β → α → Except Error β} (l : List α) (b : β)
    (h : ∀ b, ∀ v ∈ l, ∀ tx', tx.Noted tx' → (f b v).Answers tx' (g b v)) :
    (l.foldlM f b).Answers tx (l.foldlM g b) := by
  induction l generalizing tx b with
  | nil => exact .pure b tx
  | cons v l ih =>
    rw [List.foldlM_cons, List.foldlM_cons]
    refine (h b v (.head l) tx (.refl tx)).bind fun b' tx' _ htx' => ?_
    exact ih b' fun b'' u hu tx'' htx'' => h b'' u (.tail v hu) tx'' (htx'.trans htx'')

/-- To do for each thing in `l` what only looks is to look once for each. -/
theorem Answers.mapM {f : α → Access β} {g : α → β} (l : List α)
    (h : ∀ v ∈ l, ∀ tx', tx.Noted tx' → (f v).Answers tx' (.ok (g v))) :
    (l.mapM f).Answers tx (.ok (l.map g)) := by
  induction l generalizing tx with
  | nil => exact .pure [] tx
  | cons v l ih =>
    rw [List.mapM_cons, List.map_cons]
    refine (h v (.head l) tx (.refl tx)).bind_of_ok fun tx' htx' => ?_
    exact (ih fun u hu tx'' htx'' => h u (.tail v hu) tx'' (htx'.trans htx'')).map (g v :: ·)

/-! ## Looking up and searching -/

theorem answers_require (k : Key) (f : Tables → Option α) (tx : Transaction) :
    (require k f).Answers tx ((f tx.view).elim (.error (.missing k)) .ok) := by
  constructor
  · rw [require_apply]
    cases f tx.view <;> rfl
  · rw [require_apply]
    cases f tx.view <;> exact .read k tx

theorem answers_infos (q : InfoQuery) (tx : Transaction) :
    (infos q).Answers tx (.ok (tx.view.selectInfos q)) := ⟨rfl, .scan .info tx⟩

theorem answers_vectors (q : VectorQuery) (tx : Transaction) :
    (vectors q).Answers tx (.ok (tx.view.selectVectors q)) :=
  ⟨by rw [vectors_apply]; rfl, by rw [vectors_apply]; exact .scans _ _ _ tx⟩

theorem answers_countVectors (q : VectorQuery) (tx : Transaction) :
    (countVectors q).Answers tx (.ok (tx.view.selectVectors q).length) :=
  (answers_vectors q tx).map List.length

/-! ## Operations -/

/-- To run `a` and then `f` is the same inside an operation. -/
theorem op_bind (a : Access α) (f : α → Access β) :
    Op.access (a >>= f) = Op.access a >>= fun v => Op.access (f v) := by
  funext s
  change Op.access (EStateM.bind a f) s = EStateM.bind (Op.access a) (fun v => Op.access (f v)) s
  simp only [Op.access, EStateM.bind]
  cases a s.tx <;> rfl

/-- As an operation, a computation that answers leaves the mint alone. -/
theorem Answers.op {a : Access α} {r : Except Error α} (h : a.Answers tx r) (mint : Mint) :
    Propagation.outcome (Op.access a { tx, mint }) = r ∧
      ∃ tx', tx.Noted tx' ∧ final (Op.access a { tx, mint }) = { tx := tx', mint } := by
  obtain ⟨rfl, hnoted⟩ := h
  rw [Op.access]
  cases ha : a tx <;> rw [ha] at hnoted <;> exact ⟨rfl, _, hnoted, rfl⟩

end Access

end Propagation
