import Propagation.Operation

/-!
# What to send, and to whom

Content and recipients are named one by one, by what they are, or by lists of such names, nested
as deep as one likes.

## Main definitions

* `Content`: infos to send.
* `Recipients`: nodes to send to.
-/

namespace Propagation

/-- Infos to send. -/
inductive Content
  /-- This info, which the sending node has to have authored. -/
  | info (info : Info)
  /-- The infos that the sending node authored and the filter chooses, the latest first. -/
  | ofType (filter : InfoFilter)
  /-- One after the other. -/
  | many (items : List Content)

/-- Nodes to send to. -/
inductive Recipients
  /-- This node, to which a live vector has to lead. -/
  | node (node : Node)
  /-- The nodes to which a live vector leads and which the filter chooses. -/
  | ofType (filter : NodeFilter)
  /-- One after the other. -/
  | many (items : List Recipients)

namespace Content

mutual

/-- The number of names in a content, lists included. -/
def size : Content → Nat
  | info _ => 1
  | ofType _ => 1
  | many items => sizeAll items + 1

/-- The number of names in several contents. -/
def sizeAll : List Content → Nat
  | [] => 0
  | c :: rest => c.size + sizeAll rest

end

theorem sizeAll_append (a b : List Content) : sizeAll (a ++ b) = sizeAll a + sizeAll b := by
  induction a with
  | nil => simp [sizeAll]
  | cons c rest ih => simp [sizeAll, ih, Nat.add_assoc]

end Content

namespace Recipients

mutual

/-- The number of names in recipients, lists included. -/
def size : Recipients → Nat
  | node _ => 1
  | ofType _ => 1
  | many items => sizeAll items + 1

/-- The number of names in several recipients. -/
def sizeAll : List Recipients → Nat
  | [] => 0
  | r :: rest => r.size + sizeAll rest

end

theorem sizeAll_append (a b : List Recipients) : sizeAll (a ++ b) = sizeAll a + sizeAll b := by
  induction a with
  | nil => simp [sizeAll]
  | cons r rest ih => simp [sizeAll, ih, Nat.add_assoc]

end Recipients

end Propagation
