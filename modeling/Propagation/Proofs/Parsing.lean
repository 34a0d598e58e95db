import Propagation.Json.Reader
import Propagation.Proofs.Spelling

/-!
# Reading values back

A value that is written, without blanks or over lines, is read as the value. The reader takes in
the tokens of a value as a whole: whatever has been opened around it, the value is put there in the
end. The writer never puts a number next to what could go on with it, since an item or a member
ends with a comma or with what closes it.

## Main definitions

* `Json.IsExact`: a value all of whose tokens are read as they were written.

## Main statements

* `Json.foldlM_tokens`, `Json.ofTokens?_tokens`: the tokens of a value denote it.
* `Json.isChain_tokens`: they may follow each other without blanks.
* `Json.layout_prettyChars`: a value over lines is made of its tokens and blanks.
* `Json.read?_compact`, `Json.read?_pretty`: an exact value is read back.
-/

namespace Propagation

namespace Token

/-- A token `t` that is not a number may stand before any other. -/
theorem isChain_cons {t : Token} (ht : t.isInt = false) {ts : List Token} (h : ts.IsChain Joins) :
    (t :: ts).IsChain Joins :=
  List.isChain_cons.2 ⟨fun _ _ hint => by simp [ht] at hint, h⟩

namespace Layout

variable {s : List Char} {ts : List Token}

/-- The blanks `bs` may be put before a text. -/
theorem blanks (h : Layout s ts) {bs : List Char} (hbs : ∀ c ∈ bs, isBlank c = true) :
    Layout (bs ++ s) ts := by
  cases h with
  | blank h => exact .blank (List.forall_mem_append.2 ⟨hbs, h⟩)
  | token hblanks h =>
    rw [← List.append_assoc, ← List.append_assoc]
    exact .token (List.forall_mem_append.2 ⟨hbs, hblanks⟩) h

/-- The token `t` may be put before a text. -/
theorem cons (h : Layout s ts) (t : Token) : Layout (t.chars ++ s) (t :: ts) :=
  .token (List.forall_mem_nil _) h

/-- The tokens `us` may be put before a text without any blanks. -/
theorem flatMap (h : Layout s ts) (us : List Token) :
    Layout (us.flatMap chars ++ s) (us ++ ts) := by
  induction us with
  | nil => exact h
  | cons u us ih =>
    rw [List.flatMap_cons, List.append_assoc]
    exact ih.cons u

end Layout

end Token

namespace Json

open Token (Joins Layout)

/-! ## From tokens to values -/

theorem foldlM_cons {r r' : Reading} {t : Token} (h : step r t = some r') (ts : List Token) :
    (t :: ts).foldlM step r = ts.foldlM step r' := by
  rw [List.foldlM_cons, h]
  rfl

/-- No value starts with `closeArray`. -/
theorem tokens_cons (j : Json) : ∃ t ts, j.tokens = t :: ts ∧ t ≠ .closeArray := by
  rcases j with s | (_ | ⟨j, items⟩) | (_ | ⟨⟨name, j⟩, members⟩)
  · cases s <;> exact ⟨_, _, rfl, nofun⟩
  all_goals exact ⟨_, _, rfl, nofun⟩

/-- The first item `j` of an array is read as any other. -/
theorem foldlM_opened (j : Json) (outer : List Frame) (ts : List Token) :
    (j.tokens ++ ts).foldlM step (.opened outer) =
      (j.tokens ++ ts).foldlM step (.value (.items [] :: outer)) := by
  obtain ⟨t, us, htokens, ht⟩ := tokens_cons j
  have hstep : step (.opened outer) t = step (.value (.items [] :: outer)) t := by
    cases t <;> first | rfl | exact absurd rfl ht
  rw [htokens, List.cons_append, List.foldlM_cons, List.foldlM_cons, hstep]

mutual

/-- The tokens of `j` are read as `j`, which goes where the last array or object was opened. -/
theorem foldlM_tokens (j : Json) (outer : List Frame) (ts : List Token) :
    (j.tokens ++ ts).foldlM step (.value outer) = ts.foldlM step (complete j outer) := by
  match j with
  | scalar s => cases s <;> rfl
  | arr [] => rfl
  | arr (j :: items) =>
    have hopen : step (.value outer) .openArray = some (.opened outer) := rfl
    rw [tokens, List.cons_append, List.cons_append, List.cons_append, foldlM_cons hopen,
      List.append_assoc, List.append_assoc, foldlM_opened, foldlM_tokens j, complete,
      List.singleton_append, foldlM_itemTokens items]
    rfl
  | obj [] => rfl
  | obj ((name, j) :: members) =>
    have hopen : step (.value outer) .openObject = some (.openedObject outer) := rfl
    have hname : step (.openedObject outer) (.str (some name)) =
        some (.colon (some []) (some name) outer) := rfl
    have hcolon : step (.colon (some []) (some name) outer) .colon =
        some (.value (.member (some []) (some name) :: outer)) := rfl
    simp only [tokens, List.cons_append, foldlM_cons hopen, foldlM_cons hname, foldlM_cons hcolon,
      List.append_assoc, List.nil_append]
    rw [foldlM_tokens j, complete, addMember, foldlM_memberTokens members]
    rfl

/-- The items after the first, and the end of the array. -/
theorem foldlM_itemTokens (items : List Json) (done : List Json) (outer : List Frame)
    (ts : List Token) :
    (itemTokens items ++ .closeArray :: ts).foldlM step (.moreItems done outer) =
      ts.foldlM step (complete (arr (done.reverse ++ items)) outer) := by
  match items with
  | [] =>
    rw [List.append_nil]
    rfl
  | j :: items =>
    have hcomma : step (.moreItems done outer) .comma = some (.value (.items done :: outer)) := rfl
    rw [itemTokens, List.cons_append, List.cons_append, foldlM_cons hcomma, List.append_assoc,
      foldlM_tokens j, complete, foldlM_itemTokens items, List.reverse_cons, List.append_assoc,
      List.singleton_append]

/-- The members after the first, and the end of the object. -/
theorem foldlM_memberTokens (members done : List (String × Json)) (outer : List Frame)
    (ts : List Token) :
    (memberTokens members ++ .closeObject :: ts).foldlM step (.moreMembers (some done) outer) =
      ts.foldlM step (complete (obj (done.reverse ++ members)) outer) := by
  match members with
  | [] =>
    rw [List.append_nil]
    rfl
  | (name, j) :: members =>
    have hcomma : step (.moreMembers (some done) outer) .comma =
        some (.name (some done) outer) := rfl
    have hname : step (.name (some done) outer) (.str (some name)) =
        some (.colon (some done) (some name) outer) := rfl
    have hcolon : step (.colon (some done) (some name) outer) .colon =
        some (.value (.member (some done) (some name) :: outer)) := rfl
    simp only [memberTokens, List.cons_append, foldlM_cons hcomma, foldlM_cons hname,
      foldlM_cons hcolon, List.append_assoc]
    rw [foldlM_tokens j, complete, addMember, foldlM_memberTokens members, List.reverse_cons,
      List.append_assoc, List.singleton_append]

end

/-- The tokens of `j` denote `j`. -/
theorem ofTokens?_tokens (j : Json) : ofTokens? j.tokens = some j := by
  have hread := foldlM_tokens j [] []
  rw [List.append_nil] at hread
  rw [ofTokens?, hread]
  rfl

/-! ## Numbers and what follows them -/

section Chain

variable {ts : List Token}

/-- What follows a value, if it does not go on with a number, does not either behind items. -/
theorem free_itemTokens (items : List Json) (hfree : ∀ u ∈ ts.head?, Token.Free u.chars) :
    ∀ u ∈ (itemTokens items ++ ts).head?, Token.Free u.chars := by
  match items with
  | [] => exact hfree
  | j :: items =>
    rintro _ ⟨⟩ _ ⟨⟩
    decide

theorem free_memberTokens (members : List (String × Json))
    (hfree : ∀ u ∈ ts.head?, Token.Free u.chars) :
    ∀ u ∈ (memberTokens members ++ ts).head?, Token.Free u.chars := by
  match members with
  | [] => exact hfree
  | (name, j) :: members =>
    rintro _ ⟨⟩ _ ⟨⟩
    decide

end Chain

theorem isChain_closer {t : Token} (ht : t = .closeArray ∨ t = .closeObject) {ts : List Token}
    (h : ts.IsChain Joins) :
    ([t] ++ ts).IsChain Joins ∧ ∀ u ∈ ([t] ++ ts).head?, Token.Free u.chars := by
  refine ⟨Token.isChain_cons (by rcases ht with rfl | rfl <;> rfl) h, ?_⟩
  rintro _ ⟨⟩ c hc
  rcases ht with rfl | rfl <;> (cases hc; decide)

mutual

/-- The tokens of `j` may follow each other without blanks, if what comes behind `j` does not go on
with a number. -/
theorem isChain_tokens (j : Json) {ts : List Token} (h : ts.IsChain Joins)
    (hfree : ∀ u ∈ ts.head?, Token.Free u.chars) : (j.tokens ++ ts).IsChain Joins := by
  match j with
  | scalar s =>
    cases s <;> exact List.isChain_cons.2 ⟨fun u hu _ => hfree u hu, h⟩
  | arr [] => exact Token.isChain_cons rfl (Token.isChain_cons rfl h)
  | arr (j :: items) =>
    obtain ⟨hclose, hend⟩ := isChain_closer (.inl rfl) h
    have hitems := isChain_itemTokens items hclose hend
    have htokens := isChain_tokens j hitems (free_itemTokens items hend)
    rw [tokens, List.append_assoc, List.append_assoc, List.cons_append]
    exact Token.isChain_cons rfl htokens
  | obj [] => exact Token.isChain_cons rfl (Token.isChain_cons rfl h)
  | obj ((name, j) :: members) =>
    obtain ⟨hclose, hend⟩ := isChain_closer (.inr rfl) h
    have hmembers := isChain_memberTokens members hclose hend
    have htokens := isChain_tokens j hmembers (free_memberTokens members hend)
    rw [tokens, List.append_assoc, List.append_assoc, List.cons_append, List.cons_append,
      List.cons_append]
    exact Token.isChain_cons rfl (Token.isChain_cons rfl (Token.isChain_cons rfl htokens))

theorem isChain_itemTokens (items : List Json) {ts : List Token} (h : ts.IsChain Joins)
    (hfree : ∀ u ∈ ts.head?, Token.Free u.chars) : (itemTokens items ++ ts).IsChain Joins := by
  match items with
  | [] => exact h
  | j :: items =>
    have hitems := isChain_itemTokens items h hfree
    have htokens := isChain_tokens j hitems (free_itemTokens items hfree)
    rw [itemTokens, List.append_assoc, List.cons_append]
    exact Token.isChain_cons rfl htokens

theorem isChain_memberTokens (members : List (String × Json)) {ts : List Token}
    (h : ts.IsChain Joins) (hfree : ∀ u ∈ ts.head?, Token.Free u.chars) :
    (memberTokens members ++ ts).IsChain Joins := by
  match members with
  | [] => exact h
  | (name, j) :: members =>
    have hmembers := isChain_memberTokens members h hfree
    have htokens := isChain_tokens j hmembers (free_memberTokens members hfree)
    rw [memberTokens, List.append_assoc, List.cons_append, List.cons_append, List.cons_append]
    exact Token.isChain_cons rfl (Token.isChain_cons rfl (Token.isChain_cons rfl htokens))

end

/-! ## Lines -/

theorem isBlank_newline (depth : Nat) : ∀ c ∈ newline depth, Token.isBlank c = true := by
  simp only [newline, List.forall_mem_cons]
  exact ⟨rfl, fun c hc => List.eq_of_mem_replicate hc ▸ rfl⟩

theorem isBlank_space : ∀ c ∈ [' '], Token.isBlank c = true := by simp [Token.isBlank]

mutual

/-- The value `j` over lines is made of its tokens and blanks. -/
theorem layout_prettyChars (depth : Nat) (j : Json) {rest : List Char} {ts : List Token}
    (h : Layout rest ts) : Layout (prettyChars depth j ++ rest) (j.tokens ++ ts) := by
  match j with
  | scalar s => exact h.flatMap _
  | arr [] => exact (h.cons .closeArray).cons .openArray
  | arr (j :: items) =>
    have hclose := (h.cons .closeArray).blanks (isBlank_newline depth)
    have hitems := layout_prettyItems (depth + 1) items hclose
    have htokens := layout_prettyChars (depth + 1) j hitems
    have hopen := (htokens.blanks (isBlank_newline (depth + 1))).cons .openArray
    simpa [prettyChars, tokens, Token.chars] using hopen
  | obj [] => exact (h.cons .closeObject).cons .openObject
  | obj ((name, j) :: members) =>
    have hclose := (h.cons .closeObject).blanks (isBlank_newline depth)
    have hmembers := layout_prettyMembers (depth + 1) members hclose
    have htokens := (layout_prettyChars (depth + 1) j hmembers).blanks isBlank_space
    have hname := (htokens.cons .colon).cons (.str (some name))
    have hopen := (hname.blanks (isBlank_newline (depth + 1))).cons .openObject
    simpa [prettyChars, tokens, Token.chars] using hopen

theorem layout_prettyItems (depth : Nat) (items : List Json) {rest : List Char} {ts : List Token}
    (h : Layout rest ts) : Layout (prettyItems depth items ++ rest) (itemTokens items ++ ts) := by
  match items with
  | [] => exact h
  | j :: items =>
    have htokens := layout_prettyChars depth j (layout_prettyItems depth items h)
    have hcomma := (htokens.blanks (isBlank_newline depth)).cons .comma
    simpa [prettyItems, itemTokens, Token.chars] using hcomma

theorem layout_prettyMembers (depth : Nat) (members : List (String × Json)) {rest : List Char}
    {ts : List Token} (h : Layout rest ts) :
    Layout (prettyMembers depth members ++ rest) (memberTokens members ++ ts) := by
  match members with
  | [] => exact h
  | (name, j) :: members =>
    have hmembers := layout_prettyMembers depth members h
    have htokens := (layout_prettyChars depth j hmembers).blanks isBlank_space
    have hname := (htokens.cons .colon).cons (.str (some name))
    have hcomma := (hname.blanks (isBlank_newline depth)).cons .comma
    simpa [prettyMembers, memberTokens, Token.chars] using hcomma

end

/-! ## Texts -/

/-- All tokens of the value `j` are read as they were written. -/
def IsExact (j : Json) : Prop := ∀ t ∈ j.tokens, t.isExact

/-- A text that is made of the tokens of `j` and of blanks is read as `j`. -/
theorem read?_of_layout {j : Json} (hj : j.IsExact) {s : String} (h : Layout s.toList j.tokens) :
    read? s = some j := by
  have hchain : j.tokens.IsChain Joins := by
    have hchain : (j.tokens ++ []).IsChain Joins := isChain_tokens j .nil (by simp)
    rwa [List.append_nil] at hchain
  rw [read?, h.ofChars?_eq hj hchain]
  exact ofTokens?_tokens j

/-- A value that is written by `compact` is read back. -/
theorem read?_compact {j : Json} (hj : j.IsExact) : read? j.compact = some j := by
  refine read?_of_layout hj ?_
  have hlayout := (Layout.blank (List.forall_mem_nil _)).flatMap j.tokens
  rw [List.append_nil, List.append_nil] at hlayout
  rwa [compact, String.toList_ofList]

/-- A value that is written by `pretty` is read back. -/
theorem read?_pretty {j : Json} (hj : j.IsExact) : read? (j.pretty ++ "\n") = some j := by
  refine read?_of_layout hj ?_
  have hend : Layout ['\n'] [] := .blank (by simp [Token.isBlank])
  have hlayout := layout_prettyChars 0 j hend
  rw [List.append_nil] at hlayout
  simpa [pretty] using hlayout

end Json

end Propagation
