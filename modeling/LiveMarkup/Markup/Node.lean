import LiveMarkup.Markup.Vocabulary

/-! # Trees of markup

A `Forest` is a sequence of sibling nodes without a parent: what markup is read into, and what is
copied wherever the markup is to appear. -/

namespace LiveMarkup.Markup

/-- An element, a text or a comment.  The attributes of an element are pairs of a name and a
value. -/
inductive Node where
  | element (name : String) (space : Option String) (attributes : List (String × String))
      (children : List Node)
  | text (data : String)
  | comment (data : String)
  deriving Repr, Inhabited

/-- Sibling nodes. -/
abbrev Forest :=
  List Node

/-! ## Equality -/

mutual

def Node.decEq : (a b : Node) → Decidable (a = b)
  | .text data, .text data' => decidable_of_iff (data = data') (by simp)
  | .comment data, .comment data' => decidable_of_iff (data = data') (by simp)
  | .element name space attributes children, .element name' space' attributes' children' =>
    match Forest.decEq children children' with
    | isTrue same =>
      decidable_of_iff (name = name' ∧ space = space' ∧ attributes = attributes') (by simp [same])
    | isFalse different => isFalse (by simp [different])
  | .text _, .comment _ | .text _, .element _ _ _ _ | .comment _, .text _
  | .comment _, .element _ _ _ _ | .element _ _ _ _, .text _ | .element _ _ _ _, .comment _ =>
    isFalse (by simp)

def Forest.decEq : (a b : List Node) → Decidable (a = b)
  | [], [] => isTrue rfl
  | [], _ :: _ | _ :: _, [] => isFalse (by simp)
  | a :: as, b :: bs =>
    match Node.decEq a b with
    | isFalse different => isFalse (by simp [different])
    | isTrue same =>
      match Forest.decEq as bs with
      | isTrue same' => isTrue (by rw [same, same'])
      | isFalse different => isFalse (by simp [different])

end

instance : DecidableEq Node :=
  Node.decEq

end LiveMarkup.Markup
