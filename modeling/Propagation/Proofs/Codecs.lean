import Propagation.Config
import Propagation.Proofs.NormalForm
import Propagation.Proofs.Ownership
import Propagation.Proofs.Parsing

/-!
# Values read back

Every value that is written as JSON is read as the value that it was, and a dossier that is written
as a document is read as the records that were collected. What was read from a text is read again
from its own text.

A structure is an object whose members have different names, so that each is found under its name.
An identifier is written in groups whose first character is a digit, so that it is taken neither
for one in braces nor for one behind a name. The counts of a network are read up to the size of a
machine word.

## Main definitions

* `Json.write`, `Json.parse?`: a value as a text without blanks, and the value of a text.
* `Json.LawfulCodec`: a codec that reads every value back.
* `Json.RoundTrips`: all values of a type are read back from their texts.
* `Dossier.IsReadFrom`: the members of a document denote what was collected.

## Main statements

* `Id.ofText?_hyphenated`: identifiers are read back.
* `Json.fields?_zip`: so are structures, member by member.
* `Dossier.isReadFrom`: and dossiers, list by list.
* `texts_read_back`: all of them, as texts.
-/

namespace Propagation

open Json (encode decode? needed? optional?)

/-! ## Identifiers -/

namespace Id

variable {e : Entity}

theorem ungroup?_hyphenate (widths : List Nat) (hne : widths ≠ []) (s : List Char)
    (hs : s.length = widths.sum) : ungroup? widths (hyphenate widths s) = some s := by
  fun_induction hyphenate widths s with
  | case1 => exact absurd rfl hne
  | case2 w s =>
    have hw : s.length = w := by simpa using hs
    rw [ungroup?, List.take_of_length_le (by omega), if_pos hw]
  | case3 w widths s hwidths ih =>
    have hw : (s.take w).length = w := by
      rw [List.length_take, hs, List.sum_cons]
      omega
    have hrest : (s.drop w).length = widths.sum := by
      rw [List.length_drop, hs, List.sum_cons]
      omega
    rw [ungroup?, List.drop_left' hw, List.take_left' hw]
    · simp only [ih (by simpa using hwidths) hrest, Option.map_some, List.take_append_drop]
    · simpa using hwidths

theorem length_hyphenate (widths : List Nat) (s : List Char) (hs : s.length = widths.sum) :
    (hyphenate widths s).length = s.length + (widths.length - 1) := by
  fun_induction hyphenate widths s with
  | case1 => simpa using hs.symm
  | case2 w s => simp_all
  | case3 w widths s hwidths ih =>
    have hrest : (s.drop w).length = widths.sum := by
      rw [List.length_drop, hs, List.sum_cons]
      omega
    have hpos : 0 < widths.length := List.length_pos_of_ne_nil (by simpa using hwidths)
    rw [List.length_append, List.length_cons, ih hrest, List.length_take, List.length_drop,
      List.length_cons, hs, List.sum_cons]
    omega

theorem mem_fixed {width n : Nat} {c : Char} (hc : c ∈ Numeral.fixed 16 width n) :
    ∃ d < 16, c = Numeral.digit d := by
  induction width generalizing n with
  | zero => cases hc
  | succ width ih =>
    rcases List.mem_append.1 hc with hc | hc
    · exact ih hc
    · exact ⟨n % 16, Nat.mod_lt _ (by omega), List.mem_singleton.1 hc⟩

/-- The digits that `hyphenate` groups are found again by `bare?`. -/
theorem bare?_hyphenate (i : Id e) : bare? (hyphenate groups i.hex) = some i.hex := by
  have hlength : i.hex.length = groups.sum := Numeral.length_fixed 16 32 i.number
  have hgroups := ungroup?_hyphenate groups (by decide) i.hex hlength
  have hlong : (hyphenate groups i.hex).length ≠ 32 := by
    rw [length_hyphenate groups i.hex hlength, hlength]
    decide
  obtain ⟨c, s, hhex⟩ := List.exists_cons_of_length_pos (l := i.hex) (by rw [hlength]; decide)
  obtain ⟨d, hd, hc⟩ := mem_fixed (hhex ▸ List.mem_cons_self : c ∈ i.hex)
  -- The grouped form starts with the first of the digits.
  obtain ⟨u, hu⟩ : ∃ u, hyphenate groups i.hex = c :: u := by
    rw [hhex]
    exact ⟨_, rfl⟩
  have hbrace : c ≠ '\x7b' := by
    have table : ∀ d < 16, Numeral.digit d ≠ '\x7b' := by decide
    exact hc ▸ table d hd
  have hurn : ((c :: u).take 9).map Char.toLower ≠ "urn:uuid:".toList := by
    have table : ∀ d < 16, some (Numeral.digit d).toLower ≠ "urn:uuid:".toList.head? := by decide
    intro heq
    exact table d hd (hc ▸ congrArg List.head? heq)
  rw [hu] at hlong hgroups ⊢
  rw [bare?, if_neg hlong, if_neg hurn, hgroups]
  intro rest heq
  exact hbrace (List.cons.inj heq).1

theorem ofDigits?_hex (i : Id e) : Numeral.ofDigits? 16 i.hex = some i.number := by
  have hnumber : i.number < 2 ^ 128 := i.bits.isLt
  have hpow : 16 ^ 32 = 2 ^ 128 := by norm_num
  rw [hex, Numeral.ofDigits?_fixed (by omega) (by omega), hpow, Nat.mod_eq_of_lt hnumber]

/-- An identifier is read back from its `hyphenated` form. -/
theorem ofText?_hyphenated (i : Id e) : ofText? i.hyphenated = some i := by
  have hbits : BitVec.ofNat 128 i.number = i.bits := by
    rw [number, BitVec.ofNat_toNat, BitVec.setWidth_eq]
  simp only [ofText?, hyphenated, String.toList_ofList, bare?_hyphenate, ofDigits?_hex,
    Option.bind_eq_bind, Option.bind_some, hbits]
  rfl

end Id

/-! ## Codecs -/

namespace Json

theorem isExact_str (s : String) : (str s).IsExact := by
  simp [IsExact, tokens, Token.isExact]

theorem isExact_null : null.IsExact := by
  simp [IsExact, tokens, Token.isExact]

theorem isExact_int {n : Int} (hn : n.natAbs < UInt64.size) : (int n).IsExact := by
  simpa [IsExact, tokens, Token.isExact] using hn

theorem isExact_itemTokens {items : List Json} (h : ∀ j ∈ items, j.IsExact) :
    ∀ t ∈ itemTokens items, t.isExact := by
  induction items with
  | nil => exact List.forall_mem_nil _
  | cons j items ih =>
    obtain ⟨hj, hitems⟩ := List.forall_mem_cons.1 h
    rw [itemTokens, List.cons_append]
    exact List.forall_mem_cons.2 ⟨rfl, List.forall_mem_append.2 ⟨hj, ih hitems⟩⟩

/-- An array is exact if its items are. -/
theorem isExact_arr {items : List Json} (h : ∀ j ∈ items, j.IsExact) : (arr items).IsExact := by
  cases items with
  | nil => simp [IsExact, tokens, Token.isExact]
  | cons j items =>
    obtain ⟨hj, hitems⟩ := List.forall_mem_cons.1 h
    rw [IsExact, tokens, List.append_assoc, List.cons_append]
    refine List.forall_mem_cons.2 ⟨rfl, List.forall_mem_append.2 ⟨hj, ?_⟩⟩
    exact List.forall_mem_append.2 ⟨isExact_itemTokens hitems, by simp [Token.isExact]⟩

theorem isExact_memberTokens {members : List (String × Json)} (h : ∀ m ∈ members, m.2.IsExact) :
    ∀ t ∈ memberTokens members, t.isExact := by
  induction members with
  | nil => exact List.forall_mem_nil _
  | cons m members ih =>
    obtain ⟨hj, hmembers⟩ := List.forall_mem_cons.1 h
    rw [memberTokens, List.cons_append, List.cons_append, List.cons_append]
    refine List.forall_mem_cons.2 ⟨rfl, List.forall_mem_cons.2 ⟨rfl, List.forall_mem_cons.2
      ⟨rfl, List.forall_mem_append.2 ⟨hj, ih hmembers⟩⟩⟩⟩

/-- An object is exact if the values of its members are. -/
theorem isExact_obj {members : List (String × Json)} (h : ∀ m ∈ members, m.2.IsExact) :
    (obj members).IsExact := by
  cases members with
  | nil => simp [IsExact, tokens, Token.isExact]
  | cons m members =>
    obtain ⟨hj, hmembers⟩ := List.forall_mem_cons.1 h
    rw [IsExact, tokens, List.append_assoc, List.cons_append, List.cons_append, List.cons_append]
    refine List.forall_mem_cons.2 ⟨rfl, List.forall_mem_cons.2 ⟨rfl, List.forall_mem_cons.2
      ⟨rfl, List.forall_mem_append.2 ⟨hj, ?_⟩⟩⟩⟩
    exact List.forall_mem_append.2 ⟨isExact_memberTokens hmembers, by simp [Token.isExact]⟩

/-- The value `a` is read back, and is not written as if it were absent. -/
structure Faithful {α : Type} [Codec α] (a : α) : Prop where
  isExact : (encode a).IsExact
  ne_null : encode a ≠ null
  back : decode? (encode a) = some a

/-- The codec of `α` reads every value back. -/
class LawfulCodec (α : Type) [Codec α] : Prop where
  faithful (a : α) : Faithful a

section Codec

variable {α : Type} [Codec α]

theorem Faithful.of_str {a : α} {s : String} (hwrite : encode a = str s)
    (hread : decode? (str s) = some a) : Faithful a where
  isExact := hwrite ▸ isExact_str s
  ne_null := by simp [hwrite]
  back := hwrite ▸ hread

variable [LawfulCodec α]

@[simp] theorem isExact_encode (a : α) : (encode a).IsExact := (LawfulCodec.faithful a).isExact

@[simp] theorem decode?_encode (a : α) : decode? (encode a) = some a :=
  (LawfulCodec.faithful a).back

@[simp] theorem needed?_encode (a : α) : needed? (some (encode a)) = some a := decode?_encode a

@[simp] theorem isExact_encode_option (a : Option α) : (encode a).IsExact := by
  cases a with
  | none => exact isExact_null
  | some a => exact isExact_encode a

omit [LawfulCodec α] in
/-- What is not `null` is read as a value that is there. -/
theorem decode?_option {j : Json} (hj : j ≠ null) :
    (decode? j : Option (Option α)) = (decode? j).map some := by
  cases j with
  | scalar s =>
    cases s with
    | null => exact absurd rfl hj
    | _ => rfl
  | _ => rfl

/-- A field that may be absent is read back by `optional?`, whether it is there or not. -/
@[simp] theorem optional?_encode (a : Option α) : optional? (some (encode a)) = some a := by
  cases a with
  | none => rfl
  | some a =>
    have hread : (decode? (encode a) : Option (Option α)) = _ :=
      decode?_option (LawfulCodec.faithful a).ne_null
    rw [decode?_encode] at hread
    exact hread

/-- The rows of a list are read back in their order. -/
theorem mapM_decode?_encode (rows : List α) : (rows.map encode).mapM decode? = some rows := by
  induction rows with
  | nil => rfl
  | cons a rows ih => simp [ih]

end Codec

/-! ## Structures -/

/-- The member `m` is found under its name, if no other has the name. -/
theorem member?_of_mem {members : List (String × Json)} (hnames : (members.map Prod.fst).Nodup)
    {m : String × Json} (hm : m ∈ members) : member? members m.1 = some (some m.2) := by
  have hfilter : members.filter (·.1 = m.1) = [m] := by
    induction members with
    | nil => cases hm
    | cons a members ih =>
      obtain ⟨hfresh, hnames⟩ := List.nodup_cons.1 hnames
      rcases List.mem_cons.1 hm with rfl | hm
      · rw [List.filter_cons_of_pos (by simp), List.filter_eq_nil_iff.2]
        intro a ha heq
        exact hfresh (List.mem_map.2 ⟨a, ha, of_decide_eq_true heq⟩)
      · rw [List.filter_cons_of_neg, ih hnames hm]
        intro heq
        exact hfresh (of_decide_eq_true heq ▸ List.mem_map_of_mem hm)
  rw [member?, hfilter]

/-- The members of a structure are found under their `names`. -/
theorem fields?_zip (names : List String) (hnames : names.Nodup) (values : List Json)
    (hlength : names.length = values.length) :
    fields? names (obj (names.zip values)) = some (values.map some) := by
  have hfst : (names.zip values).map Prod.fst = names := List.map_fst_zip hlength.le
  have hsnd : (names.zip values).map Prod.snd = values := List.map_snd_zip hlength.ge
  generalize names.zip values = members at hfst hsnd
  subst hfst hsnd
  have hfound (found : List (String × Json)) (hsub : found ⊆ members) :
      (found.map Prod.fst).mapM (member? members) = some ((found.map Prod.snd).map some) := by
    induction found with
    | nil => rfl
    | cons m found ih =>
      obtain ⟨hm, hsub⟩ := List.cons_subset.1 hsub
      simp [member?_of_mem hnames hm, ih hsub]
  exact hfound members fun _ hm => hm

/-- A structure is read back if the values of its members are, and stand for it under `names`. -/
theorem Faithful.of_fields {α : Type} [Codec α] {a : α} (names : List String)
    (hnames : names.Nodup) (values : List Json) (hlength : names.length = values.length)
    (hwrite : encode a = obj (names.zip values)) (hexact : ∀ j ∈ values, j.IsExact)
    (hread : ∀ members, fields? names (obj members) = some (values.map some) →
      decode? (obj members) = some a) : Faithful a where
  isExact := by
    rw [hwrite]
    exact isExact_obj fun m hm => hexact m.2 (List.of_mem_zip hm).2
  ne_null := by simp [hwrite]
  back := by
    rw [hwrite]
    exact hread _ (fields?_zip names hnames values hlength)

end Json

open Json (Faithful LawfulCodec)

/-! ## Scalars and choices -/

instance : LawfulCodec String := ⟨fun _ => .of_str rfl rfl⟩

instance {e : Entity} : LawfulCodec (Id e) := ⟨fun i => .of_str rfl i.ofText?_hyphenated⟩

instance : LawfulCodec Timestamp where
  faithful t := .of_str rfl (by simp [decode?, t.read_text, Except.toOption])

instance : LawfulCodec TxId where
  faithful i :=
    { isExact := Json.isExact_int i.number.toNat_lt
      ne_null := by simp [encode]
      back := by simp [encode, decode?, Json.nat?, i.number.toNat_lt] }

instance : LawfulCodec NodeRole := ⟨fun r => by cases r <;> exact .of_str rfl rfl⟩

instance : LawfulCodec NodeStatus := ⟨fun s => by cases s <;> exact .of_str rfl rfl⟩

instance : LawfulCodec VectorStatus := ⟨fun s => by cases s <;> exact .of_str rfl rfl⟩

instance : LawfulCodec NetworkKind := ⟨fun k => by cases k <;> exact .of_str rfl rfl⟩

/-- A choice that gives the value `j` to its `name` is read back if the value is. -/
theorem Json.Faithful.of_choice {α : Type} [Json.Codec α] {a : α} {name : String} {j : Json}
    (hwrite : encode a = .obj [(name, j)]) (hexact : j.IsExact)
    (hread : decode? (Json.obj [(name, j)]) = some a) : Faithful a where
  isExact := hwrite ▸ Json.isExact_obj (by simpa using hexact)
  ne_null := by simp [hwrite]
  back := hwrite ▸ hread

instance : LawfulCodec NodeFilter where
  faithful
    | .any => .of_str rfl rfl
    | .role r => .of_choice rfl (Json.isExact_encode r) (by cases r <;> rfl)
    | .type name => .of_choice rfl (Json.isExact_encode name) rfl

instance : LawfulCodec InfoFilter where
  faithful
    | .any => .of_str rfl rfl
    | .type name => .of_choice rfl (Json.isExact_encode name) rfl

/-! ## Records -/

instance : LawfulCodec NodeKind where
  faithful k := .of_fields ["role", "type_name"] (by decide) [encode k.role, encode k.typeName] rfl
    rfl (by simp) fun _ h => by simp [decode?, h]

instance : LawfulCodec Node where
  faithful n := .of_fields
    ["id", "kind", "creation_time", "status", "time_of_death", "network", "participant"]
    (by decide)
    [encode n.id, encode n.kind, encode n.creationTime, encode n.status, encode n.timeOfDeath,
      encode n.network, encode n.participant]
    rfl rfl (by simp) fun _ h => by simp [decode?, h]

instance : LawfulCodec Vector where
  faithful v := .of_fields
    ["id", "origin", "destination", "creation_time", "status", "time_of_death"] (by decide)
    [encode v.id, encode v.origin, encode v.destination, encode v.creationTime, encode v.status,
      encode v.timeOfDeath]
    rfl rfl (by simp) fun _ h => by simp [decode?, h]

instance : LawfulCodec Info where
  faithful i := .of_fields ["id", "info_type", "origin", "creation_time", "contents"] (by decide)
    [encode i.id, encode i.infoType, encode i.origin, encode i.creationTime, encode i.contents]
    rfl rfl (by simp) fun _ h => by simp [decode?, h]

instance : LawfulCodec Transmission where
  faithful t := .of_fields ["id", "info", "destination", "transmit_time", "receive_time"]
    (by decide)
    [encode t.id, encode t.info, encode t.destination, encode t.transmitTime,
      encode t.receiveTime]
    rfl rfl (by simp) fun _ h => by simp [decode?, h]

instance : LawfulCodec Transformation where
  faithful t := .of_fields
    ["id", "transformation_type", "node", "info_in", "info_out", "transform_time"] (by decide)
    [encode t.id, encode t.transformationType, encode t.node, encode t.infoIn, encode t.infoOut,
      encode t.transformTime]
    rfl rfl (by simp) fun _ h => by simp [decode?, h]

instance : LawfulCodec Network where
  faithful n := .of_fields ["id", "kind", "creation_time"] (by decide)
    [encode n.id, encode n.kind, encode n.creationTime] rfl rfl (by simp)
    fun _ h => by simp [decode?, h]

instance : LawfulCodec Message where
  faithful m := .of_fields ["channel", "payload"] (by decide) [encode m.channel, encode m.payload]
    rfl rfl (by simp) fun _ h => by simp [decode?, h]

/-! ## Counts -/

/-- A number below `limit` is read back. -/
theorem Json.nat?_int {limit n : Nat} (h : n < limit) : Json.nat? limit (.int n) = some n := by
  simp [Json.nat?, h]

/-- The counts in `s` fit a machine word. -/
def Network.Summary.Fits (s : Network.Summary) : Prop :=
  s.agents < UInt64.size ∧ s.sources < UInt64.size ∧ s.vectors < UInt64.size

namespace Network.Summary

/-- The counts of a network are read back if they fit a machine word. -/
theorem faithful {s : Network.Summary} (h : s.Fits) : Faithful s := by
  obtain ⟨hagents, hsources, hvectors⟩ := h
  refine .of_fields ["id", "kind", "agents", "sources", "vectors"] (by decide)
    [encode s.id, encode s.kind, .int s.agents, .int s.sources, .int s.vectors] rfl rfl ?_ ?_
  · simp [Json.isExact_int, hagents, hsources, hvectors]
  · intro members h
    simp [decode?, h, count?, Json.nat?_int, hagents, hsources, hvectors]

/-- A count that `count?` has read fits a machine word. -/
theorem lt_of_count? {j : Option Json} {n : Nat} (h : count? j = some n) : n < UInt64.size := by
  rcases j with _ | (⟨_ | _ | i | _⟩ | _ | _) <;> simp only [count?, Json.nat?] at h
  all_goals first | cases h | skip
  split at h
  · cases h
    omega
  · cases h

/-- The counts of a network that have been read fit a machine word. -/
theorem fits_of_decode? {j : Json} {s : Network.Summary} (h : decode? j = some s) : s.Fits := by
  simp only [decode?] at h
  split at h
  · simp only [Option.bind_eq_bind, Option.bind_eq_some_iff] at h
    obtain ⟨_, -, _, -, agents, hagents, sources, hsources, vectors, hvectors, hs⟩ := h
    cases hs
    exact ⟨lt_of_count? hagents, lt_of_count? hsources, lt_of_count? hvectors⟩
  · cases h

end Network.Summary

/-! ## Settings -/

/-- The number of attempts is read back. -/
theorem RetryPolicy.defaulted?_maxAttempts (n default : UInt32) :
    Json.defaulted? (fun j => (Json.nat? UInt32.size j).map UInt32.ofNat) default
      (some (.int n.toNat)) = some n := by
  rw [Json.defaulted?, Json.nat?_int (UInt32.toNat_lt n), Option.map_some, UInt32.ofNat_toNat]

instance : LawfulCodec RetryPolicy where
  faithful p := .of_fields ["max_attempts"] (by decide) [.int p.maxAttempts.toNat] rfl rfl
    (by simpa using Json.isExact_int (Nat.lt_trans p.maxAttempts.toNat_lt (by decide)))
    fun members h => by
      have hfields : Json.someFields? ["max_attempts"] (.obj members) = _ := h
      simp only [decode?, hfields, List.map_cons, List.map_nil,
        RetryPolicy.defaulted?_maxAttempts]
      rfl

/-- The kind of a store is read back, unless it is nested deeper than `Backend.maxDepth`. -/
theorem Backend.decode?_encode {outer : Nat} (houter : outer < Backend.maxDepth) (b : Backend) :
    Backend.decode? outer (encode b) = some b := by
  cases b
  have hmember : Json.member? [("kind", .str "memory")] "kind" = some (some (.str "memory")) := rfl
  have hdepth : (Json.obj [("kind", .str "memory")]).depth = 1 := rfl
  have hlegible : (Json.obj [("kind", .str "memory")]).isLegible = true := by decide
  simp only [encode, Backend.decode?, hmember, hdepth, hlegible, Bool.true_and, decide_eq_true_eq]
  exact if_pos houter

instance : LawfulCodec Config where
  faithful c := .of_fields ["retry", "backend"] (by decide) [encode c.retry, encode c.backend]
    rfl rfl (by
      have hbackend : (encode c.backend).IsExact :=
        Json.isExact_obj (by simpa using Json.isExact_str "memory")
      simpa using hbackend)
    fun members h => by
      have hfields : Json.someFields? ["retry", "backend"] (.obj members) = _ := h
      have hretry (default : RetryPolicy) :
          Json.defaulted? decode? default (some (encode c.retry)) = some c.retry := by
        rw [Json.defaulted?]
        exact Json.decode?_encode c.retry
      have hbackend (default : Backend) :
          Json.defaulted? (Backend.decode? 1) default (some (encode c.backend)) =
            some c.backend := by
        rw [Json.defaulted?]
        exact Backend.decode?_encode (by decide) c.backend
      unfold decode? instCodecConfig
      simp only [hfields, List.map_cons, List.map_nil, hretry, hbackend]
      rfl

/-! ## Dossiers -/

/-- The rows that a member lists. -/
def Json.rows? {α : Type} [Json.Codec α] : Option Json → Option (List α)
  | some (.arr items) => items.mapM decode?
  | _ => none

@[simp] theorem Json.rows?_encode {α : Type} [Json.Codec α] [LawfulCodec α] (rows : List α) :
    Json.rows? (some (.arr (rows.map encode))) = some rows := Json.mapM_decode?_encode rows

namespace Dossier

/-- The `members` of a document, which denote what was collected in `d`. -/
structure IsReadFrom (d : Dossier) (members : List (String × Json)) : Prop where
  names : members.map Prod.fst =
    ["network", "nodes", "vectors", "infos", "transmissions", "transformations"]
  network : needed? (members.lookup "network") = some d.network
  nodes : Json.rows? (members.lookup "nodes") = some d.nodes
  vectors : Json.rows? (members.lookup "vectors") = some d.vectors
  infos : Json.rows? (members.lookup "infos") = some d.infos
  transmissions : Json.rows? (members.lookup "transmissions") = some d.transmissions
  transformations : Json.rows? (members.lookup "transformations") = some d.transformations

/-- The document of the dossier `d` has the records that were collected. -/
theorem isReadFrom (d : Dossier) : ∃ members, d.encode = .obj members ∧ d.IsReadFrom members :=
  ⟨_, rfl,
    { names := rfl
      network := Json.decode?_encode d.network
      nodes := Json.rows?_encode d.nodes
      vectors := Json.rows?_encode d.vectors
      infos := Json.rows?_encode d.infos
      transmissions := Json.rows?_encode d.transmissions
      transformations := Json.rows?_encode d.transformations }⟩

theorem isExact_encode (d : Dossier) : d.encode.IsExact := by
  have hrows {α : Type} [Json.Codec α] [LawfulCodec α] (rows : List α) :
      (Json.arr (rows.map Json.encode)).IsExact :=
    Json.isExact_arr (List.forall_mem_map.2 fun a _ => Json.isExact_encode a)
  exact Json.isExact_obj (by simp [hrows])

/-- The document of the dossier `d` is read as what was written. -/
theorem read?_text (d : Dossier) : Json.read? d.text = some d.encode :=
  Json.read?_pretty d.isExact_encode

end Dossier

/-- What `Store.dossierText` makes its document from. -/
theorem Store.dossierText_eq (id : NetworkId) (s : Store) : (s.dossierText id).1 =
    (outcome (Network.dossier id (s.begin .readOnly .readCommitted).1)).map Dossier.text := by
  simp only [Store.dossierText, Store.run, Op.access]
  cases Network.dossier id (s.begin .readOnly .readCommitted).1 <;> rfl

/-! ## Texts -/

namespace Json

section Text

variable {α : Type} [Codec α]

/-- The value `a` as a text without blanks. -/
def write (a : α) : String := (encode a).compact

variable (α) in
/-- The value of type `α` that the text `s` denotes. -/
def parse? (s : String) : Option α := read? s >>= decode?

/-- A `Faithful` value is read back from its text. -/
theorem Faithful.parse?_write {a : α} (h : Faithful a) : parse? α (write a) = some a := by
  rw [parse?, write, read?_compact h.isExact]
  exact h.back

variable (α) in
/-- Every value of type `α` is read back from its text, and so is every value that was read from
another. -/
structure RoundTrips : Prop where
  back (a : α) : parse? α (write a) = some a
  again (s : String) (a : α) : parse? α s = some a → parse? α (write a) = some a

theorem LawfulCodec.roundTrips [LawfulCodec α] : RoundTrips α where
  back a := (LawfulCodec.faithful a).parse?_write
  again _ a _ := (LawfulCodec.faithful a).parse?_write

end Text

end Json

/-- Everything that is written is read back: each value from its own text, the counts of a network
if they fit a machine word, and the records of a network from the document that is made of them. -/
theorem texts_read_back :
    (Json.RoundTrips Node ∧ Json.RoundTrips Vector ∧ Json.RoundTrips Info ∧
      Json.RoundTrips Transmission ∧ Json.RoundTrips Transformation ∧ Json.RoundTrips Network ∧
      Json.RoundTrips NodeKind ∧ Json.RoundTrips NodeFilter ∧ Json.RoundTrips InfoFilter ∧
      Json.RoundTrips Message ∧ Json.RoundTrips TxId ∧ Json.RoundTrips Timestamp ∧
      Json.RoundTrips RetryPolicy ∧ Json.RoundTrips Config) ∧
    (∀ s : Network.Summary, s.Fits → Json.parse? Network.Summary (Json.write s) = some s) ∧
    (∀ (text : String) (s : Network.Summary), Json.parse? Network.Summary text = some s →
      Json.parse? Network.Summary (Json.write s) = some s) ∧
    ∀ (s : Store) (id : NetworkId) (network : Network),
      s.committed.tables.networks[id]? = some network →
      ∃ d text members,
        outcome (Network.dossier id (s.begin .readOnly .readCommitted).1) = .ok d ∧
        d = s.committed.tables.dossier network id ∧
        (s.dossierText id).1 = .ok text ∧ Json.read? text = some (.obj members) ∧
        d.IsReadFrom members := by
  refine ⟨⟨?_, ?_, ?_, ?_, ?_, ?_, ?_, ?_, ?_, ?_, ?_, ?_, ?_, ?_⟩, ?_, ?_, ?_⟩
  case refine_15 => exact fun s h => (Network.Summary.faithful h).parse?_write
  case refine_16 =>
    intro text s h
    obtain ⟨j, -, hj⟩ := Option.bind_eq_some_iff.1 h
    exact (Network.Summary.faithful (Network.Summary.fits_of_decode? hj)).parse?_write
  case refine_17 =>
    intro s id network hnetwork
    have hanswer := (Network.answers_dossier id (s.begin .readOnly .readCommitted).1).outcome
    obtain ⟨members, hencode, hread⟩ := (s.committed.tables.dossier network id).isReadFrom
    have hview : (s.begin .readOnly .readCommitted).1.view = s.committed.tables := rfl
    rw [hview, hnetwork, Option.elim_some] at hanswer
    have htext : (s.dossierText id).1 = .ok (s.committed.tables.dossier network id).text := by
      rw [Store.dossierText_eq, hanswer]
      rfl
    exact ⟨_, _, members, hanswer, rfl, htext, hencode ▸ Dossier.read?_text _, hread⟩
  all_goals exact Json.LawfulCodec.roundTrips

/-- A store with a network of one node, for whose participant half of the characters have to be
escaped. -/
def exhibition : Store where
  committed := { tables := (Tables.put (.network network) {}).put (.node node) }
  mint := .still
where
  network : Network := { id := ⟨1⟩, kind := .star, creationTime := .ofMoment .first }
  node : Node := { Node.numbered 2 with
    network := some ⟨1⟩, participant := some "\"Zoë\\Ω\"\n\x01\t𝄞" }

/-- The counts of a network with three agents and a source. -/
def exhibition.counts : Network.Summary :=
  { id := ⟨1⟩, kind := .star, agents := 3, sources := 1, vectors := 7 }

/-- The participant is the same in the document. -/
theorem texts_read_back_exhibition :
    Json.parse? Network.Summary (Json.write exhibition.counts) = some exhibition.counts ∧
    ∃ text members, (exhibition.dossierText ⟨1⟩).1 = .ok text ∧
      Json.read? text = some (.obj members) ∧
      needed? (members.lookup "network") = some exhibition.network ∧
      Json.rows? (members.lookup "nodes") = some [exhibition.node] := by
  obtain ⟨-, hsummary, -, hdossier⟩ := texts_read_back
  have hnetwork : exhibition.committed.tables.networks[(⟨1⟩ : NetworkId)]? =
      some exhibition.network := by decide +kernel
  have hnodes : (exhibition.committed.tables.dossier exhibition.network ⟨1⟩).nodes =
      [exhibition.node] := by decide +kernel
  obtain ⟨_, text, members, -, rfl, htext, hread, hmembers⟩ := hdossier _ _ _ hnetwork
  have hfits : exhibition.counts.Fits := ⟨by decide, by decide, by decide⟩
  exact ⟨hsummary _ hfits, text, members, htext, hread, hmembers.network,
    hmembers.nodes.trans (congrArg some hnodes)⟩

end Propagation
