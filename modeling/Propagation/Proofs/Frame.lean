import Propagation.Proofs.Order

/-!
# Asking the same of other tables

Requests are answered from the view, but not from all of it. Two views that agree on what a
transaction rests on give it the same answers: the record under a key that it looks up, every
record of a table that it searches, the indexes too if it searches the vectors. Whether a stored
record fits depends on its own key and on whether what it refers to is there.

## Main definitions

* `Request.Within`: what a request reads and stores is in the accounts of a transaction.
* `Tables.Agree`: two tables are alike in what a transaction rests on.

## Main statements

* `Tables.nodes_eq` and siblings: a table is known by what is found in it.
* `Request.answer_of_agree`: a request that is admitted is admitted and answered alike.
* `Request.trace_of_agree`: and so are several requests.
-/

namespace Propagation

open Std (ExtTreeMap)

namespace Tables

/-! ## Tables are known by what is found in them -/

private theorem table_eq {e : Entity} {ρ : Type} {a b : ExtTreeMap (Id e) ρ} {f : ρ → Record}
    (hf : Function.Injective f) (h : ∀ i : Id e, a[i]?.map f = b[i]?.map f) : a = b :=
  ExtTreeMap.ext_getElem? fun i => Option.map_injective hf (h i)

section Known

variable {t u : Tables}

theorem networks_eq (h : ∀ i, t.find? (.network i) = u.find? (.network i)) :
    t.networks = u.networks := table_eq (fun _ _ => Record.network.inj) h

theorem nodes_eq (h : ∀ i, t.find? (.node i) = u.find? (.node i)) : t.nodes = u.nodes :=
  table_eq (fun _ _ => Record.node.inj) h

theorem vectors_eq (h : ∀ i, t.find? (.vector i) = u.find? (.vector i)) :
    t.vectors = u.vectors := table_eq (fun _ _ => Record.vector.inj) h

theorem infos_eq (h : ∀ i, t.find? (.info i) = u.find? (.info i)) : t.infos = u.infos :=
  table_eq (fun _ _ => Record.info.inj) h

theorem transmissions_eq (h : ∀ i, t.find? (.transmission i) = u.find? (.transmission i)) :
    t.transmissions = u.transmissions := table_eq (fun _ _ => Record.transmission.inj) h

theorem transformations_eq (h : ∀ i, t.find? (.transformation i) = u.find? (.transformation i)) :
    t.transformations = u.transformations := table_eq (fun _ _ => Record.transformation.inj) h

end Known

/-! ## Agreement -/

/-- The tables `u` are like `t` in all that `tx` rests on, and hold whatever `t` holds. -/
structure Agree (tx : Transaction) (t u : Tables) : Prop where
  find? : ∀ k, tx.RestsOn k → u.find? k = t.find? k
  index : .vector ∈ tx.scans → u.outgoing = t.outgoing ∧ u.incoming = t.incoming
  has : ∀ k, t.has k → u.has k

namespace Agree

variable {tx : Transaction} {t u : Tables} (h : t.Agree tx u)
include h

theorem requireAll {keys : List Key} (hk : t.requireAll keys = .ok ()) :
    u.requireAll keys = .ok () :=
  requireAll_ok_iff.2 fun k hmem => h.has k (requireAll_ok_iff.1 hk k hmem)

/-- Tables that agree still do so once `r` is stored in both. -/
theorem put {r : Record} (hr : r.key ∈ tx.writes) : (t.put r).Agree tx (u.put r) where
  find? k hk := by
    rw [find?_put, find?_put, h.find? k hk]
  index hv := by
    obtain ⟨ho, hi⟩ := h.index hv
    by_cases hvec : r.key.entity = .vector
    · cases r with
      | vector v =>
        have hvectors : u.vectors = t.vectors := vectors_eq fun i => h.find? _ (.inr (.inr hv))
        simp only [Tables.put, putVector, link, hvectors, ho, hi]
        split
        · exact ⟨ho, hi⟩
        · exact ⟨rfl, rfl⟩
      | _ => cases hvec
    · obtain ⟨hto, hti⟩ := index_put hvec t
      obtain ⟨huo, hui⟩ := index_put hvec u
      exact ⟨huo.trans (ho.trans hto.symm), hui.trans (hi.trans hti.symm)⟩
  has k hk := by
    rw [has_put, Bool.or_eq_true] at hk ⊢
    exact hk.imp_right (h.has k)

end Agree

end Tables

/-! ## One request -/

/-- What the request `r` looks up, searches and asks to store is in the accounts of `tx`. -/
structure Request.Within (r : Request) (tx : Transaction) : Prop where
  looked : ∀ k, r.looked? = some k → k ∈ tx.reads
  searched : ∀ e ∈ r.searched, e ∈ tx.scans
  stored : ∀ s, r.stored? = some s → s.key ∈ tx.writes

/-- What a request `r` that is admitted reads and stores is in the accounts from then on. -/
theorem Request.within_of_check {r : Request} {a tx : Transaction} {P : Request → Prop}
    (hr : r.check a = .ok ()) (h : (r.after a).Becomes P tx) : r.Within tx where
  looked k hk := h.mem_reads ((r.mem_reads_after a).2 (.inr hk))
  searched e he := h.mem_scans ((r.mem_scans_after a).2 (.inr he))
  stored s hs := by
    refine h.mem_writes ((r.mem_writes_after a).2 (.inr ?_))
    rw [Request.writes_of_ok hr, hs]
    rfl

section Requests

variable {tx : Transaction} {t u : Tables} (h : t.Agree tx u)
include h

/-- A new record `r` that fits `t` fits `u`. -/
theorem Record.accept_of_agree {r : Record} (hr : r.key ∈ tx.writes) (ha : r.accept t = .ok ()) :
    r.accept u = .ok () := by
  have hnone := find?_of_accept ha
  rw [accept, Tables.has, hnone] at ha
  rw [accept, Tables.has, h.find? _ (.inr (.inl hr)), hnone]
  exact h.requireAll ha

/-- A new version `r` that fits `t` fits `u`. -/
theorem Revision.accept_of_agree {r : Revision} (hr : r.record.key ∈ tx.writes)
    (ha : r.accept t = .ok ()) : r.accept u = .ok () := by
  have hfind := h.find? _ (.inr (.inl hr))
  cases r with
  | node new =>
    have hsame := Option.map_injective (fun _ _ => Record.node.inj) hfind
    simp only [accept, acceptNode, hsame] at ha ⊢
    split at ha
    · cases ha
    · split at ha
      · cases ha
      · rw [if_neg (by assumption)]
        exact h.requireAll ha
  | vector new =>
    have hsame := Option.map_injective (fun _ _ => Record.vector.inj) hfind
    simpa only [accept, acceptVector, hsame] using ha
  | info new =>
    have hsame := Option.map_injective (fun _ _ => Record.info.inj) hfind
    simpa only [accept, acceptInfo, hsame] using ha
  | transmission new =>
    have hsame := Option.map_injective (fun _ _ => Record.transmission.inj) hfind
    simpa only [accept, acceptTransmission, hsame] using ha

namespace Request

variable {r : Request} (hr : r.Within tx)
include hr

/-- The request is answered alike by `t` and `u`. -/
theorem reply_of_agree : r.reply u = r.reply t := by
  have hscan : ∀ k : Key, k.entity ∈ r.searched → u.find? k = t.find? k :=
    fun k hk => h.find? k (.inr (.inr (hr.searched _ hk)))
  cases r with
  | find k => simp only [reply, h.find? k (.inl (hr.looked k rfl))]
  | nodes q =>
    have hnodes := Tables.nodes_eq fun i => hscan (.node i) (.head _)
    simp only [reply, Tables.selectNodes, hnodes]
  | vectors q =>
    have hmem : .vector ∈ (vectors q).searched := by rw [searched]; split <;> exact .head _
    have hvectors := Tables.vectors_eq fun i => hscan (.vector i) hmem
    obtain ⟨ho, hi⟩ := h.index (hr.searched _ hmem)
    have hmatches : q.matches u = q.matches t := by
      funext v
      cases hq : q.network with
      | none => simp only [VectorQuery.matches, hq, Option.all_none]
      | some network =>
        have hmem : .node ∈ (vectors q).searched := by simp [searched, hq]
        have hnodes := Tables.nodes_eq fun i => hscan (.node i) hmem
        simp only [VectorQuery.matches, hnodes]
    simp only [reply, Tables.selectVectors, Tables.vectorIds, hvectors, ho, hi, hmatches]
  | infos q =>
    have hinfos := Tables.infos_eq fun i => hscan (.info i) (.head _)
    simp only [reply, Tables.selectInfos, hinfos]
  | transmissions q =>
    have hmem : .transmission ∈ (transmissions q).searched := by
      rw [searched]; split <;> exact .head _
    have htransmissions := Tables.transmissions_eq fun i => hscan (.transmission i) hmem
    have hmatches : q.matches u = q.matches t := by
      funext m
      cases hq : q.origin with
      | none => simp only [TransmissionQuery.matches, hq, Option.all_none]
      | some origin =>
        have hmem : .info ∈ (transmissions q).searched := by simp [searched, hq]
        have hinfos := Tables.infos_eq fun i => hscan (.info i) hmem
        simp only [TransmissionQuery.matches, hinfos]
    simp only [reply, Tables.selectTransmissions, htransmissions, hmatches]
  | transformations q =>
    have htransformations := Tables.transformations_eq fun i => hscan (.transformation i) (.head _)
    simp only [reply, Tables.selectTransformations, htransformations]
  | _ => rfl

end Request

end Requests

namespace Request

variable {tx a b : Transaction}

/-- A request `r` that is admitted in `a` is admitted in `b`. -/
theorem check_of_agree (h : a.view.Agree tx b.view) (hmode : b.mode = a.mode) {r : Request}
    (hr : r.Within tx) (hc : r.check a = .ok ()) : r.check b = .ok () := by
  cases hs : r.stored? with
  | none => exact check_of_stored?_none hs b
  | some s =>
    obtain ⟨hacc, hwrite⟩ := (check_ok_iff hs a).1 hc
    refine (check_ok_iff hs b).2 ⟨?_, hmode.trans hwrite⟩
    have hkey := hr.stored s hs
    cases r with
    | insert s => cases hs; exact Record.accept_of_agree h hkey hacc
    | revise s => cases hs; exact Revision.accept_of_agree h hkey hacc
    | _ => cases hs

/-- A request that is admitted is answered alike in `a` and `b`, and leaves views that agree. -/
theorem answer_of_agree (h : a.view.Agree tx b.view) (hmode : b.mode = a.mode) {r : Request}
    (hr : r.Within tx) (hc : r.check a = .ok ()) :
    r.answer b = r.answer a ∧ (r.after a).view.Agree tx (r.after b).view := by
  have hc' := check_of_agree h hmode hr hc
  rw [answer_eq, answer_eq, hc, hc', reply_of_agree h hr]
  refine ⟨rfl, ?_⟩
  rw [view_after, view_after, writes_of_ok hc, writes_of_ok hc']
  cases hs : r.stored? with
  | none => exact h
  | some s => exact h.put (hr.stored s hs)

/-! ## Several requests -/

/-- Several requests that are all admitted are answered alike, and leave views that agree, if
these agree on what the first transaction rests on in the end. -/
theorem trace_of_agree (rs : List Request) (h : a.view.Agree tx b.view) (hmode : b.mode = a.mode)
    (hok : ∀ e ∈ trace rs a, e.2.isOk) (htx : (afterAll rs a).Becomes AnyRequest tx) :
    trace rs b = trace rs a ∧ (afterAll rs a).view.Agree tx (afterAll rs b).view := by
  induction rs generalizing a b with
  | nil => exact ⟨rfl, h⟩
  | cons r rs ih =>
    rw [trace, List.forall_mem_cons] at hok
    have hc : r.check a = .ok () := by
      cases ha : r.answer a with
      | error e => rw [ha] at hok; cases hok.1
      | ok v => exact (check_of_answer ha).1
    have hr : r.Within tx := within_of_check hc ((Transaction.Becomes.afterAll rs _).trans htx)
    obtain ⟨hanswer, hafter⟩ := answer_of_agree h hmode hr hc
    obtain ⟨htrace, hall⟩ := ih hafter (by simp only [mode_after, hmode]) hok.2 htx
    exact ⟨by rw [trace, trace, hanswer, htrace], hall⟩

end Request

end Propagation
