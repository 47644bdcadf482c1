import ChainIndexer.Proofs.Postgres.Execution
import Mathlib.Data.List.SplitBy

/-!
# Search conditions as a database reads them

A text is cut into words, numbers and marks, and these into comparisons that all have to be true.
Rows are compared from the left, the first difference deciding, and what is compared with NULL is
neither true nor false. Texts that are put together with a separator between them have the tokens of
their parts.
-/

namespace ChainIndexer.Postgres

theorem mapM_eq_pure_map {m : Type → Type} [Monad m] [LawfulMonad m] {α β : Type} {f : α → m β}
    {g : α → β} {items : List α} (h : ∀ item ∈ items, f item = pure (g item)) :
    items.mapM f = pure (items.map g) := by
  induction items with
  | nil => rw [List.mapM_nil, List.map_nil]
  | cons first rest ih =>
    obtain ⟨hfirst, hrest⟩ := List.forall_mem_cons.1 h
    rw [List.mapM_cons, hfirst, ih hrest, pure_bind, pure_bind, List.map_cons]

namespace Sql

/-! ### Tokens -/

inductive Token where
  /-- A keyword or a name, in small letters: capital ones make no difference. -/
  | word (text : String)
  | number (value : Nat)
  | mark (char : Char)
deriving DecidableEq

def isWordChar (c : Char) : Bool := c.isAlphanum || c = '_'

/-- Whether two characters in a row are of one token. -/
def sticks (a b : Char) : Bool := isWordChar a && isWordChar b

/-- The token of characters that stick together. A word does not start with a digit. -/
def token? : List Char → Option Token
  | [] => none
  | first :: rest =>
    if first.isDigit then
      if rest.all Char.isDigit then some (.number (Nat.ofDigitChars 10 (first :: rest) 0)) else none
    else if isWordChar first then
      some (.word (String.ofList ((first :: rest).map Char.toLower)))
    else if first ∈ ['(', ')', ',', '=', '>', '*'] then some (.mark first) else none

/-- The tokens of a text, without the blanks between them. -/
def tokens? (text : List Char) : Option (List Token) :=
  ((text.splitBy sticks).filter fun chars => !chars.all Char.isWhitespace).mapM token?

/-! ### Search conditions -/

inductive Operand where
  | column (name : String)
  | literal (value : Nat)
deriving DecidableEq

inductive Comparator where
  | equal
  | greater
deriving DecidableEq

/-- A comparison of two values, or of two rows of them. -/
structure Comparison where
  comparator : Comparator
  /-- What is compared, the first pair first. -/
  pairs : List (Operand × Operand)
deriving DecidableEq

/-- What has to be true of a row, all of it. -/
abbrev Search := List Comparison

def operand? : List Token → Option Operand
  | [.word name] => some (.column name)
  | [.number value] => some (.literal value)
  | _ => none

/-- One side of a comparison: an operand, or several in parentheses. -/
def side? : List Token → Option (List Operand)
  | .mark '(' :: rest =>
    if rest.getLast? = some (.mark ')') then
      (rest.dropLast.splitOn (.mark ',')).mapM operand?
    else none
  | tokens => (operand? tokens).map fun operand => [operand]

/-- Rows that are compared have to be of one length. -/
def compared? (comparator : Comparator) (left right : List Token) : Option Comparison := do
  let left ← side? left
  let right ← side? right
  if left.length = right.length then some ⟨comparator, left.zip right⟩ else none

def comparison? (tokens : List Token) : Option Comparison :=
  match tokens.splitOn (.mark '='), tokens.splitOn (.mark '>') with
  | [left, right], [_] => compared? .equal left right
  | [_], [left, right] => compared? .greater left right
  | _, _ => none

def search? (tokens : List Token) : Option Search :=
  (tokens.splitOn (.word "and")).mapM comparison?

def Search.ofText? (text : String) : Option Search := (tokens? text.toList).bind search?

/-! ### Truth -/

def Operand.value (row : TableRow) : Operand → Value
  | column name => row name
  | literal value => .bigint value

/-- The order of two numbers; none if one of them is NULL. -/
def order? : Value → Value → Option Ordering
  | .bigint a, .bigint b => some (compare a b)
  | _, _ => none

/-- Both of two truth values, either of which may be unknown. -/
def both : Option Bool → Option Bool → Option Bool
  | some true, other => other
  | some false, _ => some false
  | none, some false => some false
  | none, _ => none

/-- Rows are equal if all their values are. -/
def areEqual : List (Value × Value) → Option Bool
  | [] => some true
  | (a, b) :: rest => both ((order? a b).map (· = .eq)) (areEqual rest)

/-- The first pair that is not equal decides, also if its order is unknown. -/
def isGreater : List (Value × Value) → Option Bool
  | [] => some false
  | (a, b) :: rest =>
    match order? a b with
    | some .eq => isGreater rest
    | order => order.map (· = .gt)

def Comparison.truth (row : TableRow) (comparison : Comparison) : Option Bool :=
  let values := comparison.pairs.map fun pair => (pair.1.value row, pair.2.value row)
  match comparison.comparator with
  | .equal => areEqual values
  | .greater => isGreater values

def Search.truth (row : TableRow) (search : Search) : Option Bool :=
  search.foldr (fun comparison rest => both (comparison.truth row) rest) (some true)

/-! ### Tokens of texts that are put together -/

/-- Whether a text has some tokens. -/
def Lexes (text : List Char) (tokens : List Token) : Prop := tokens? text = some tokens

instance (text : List Char) (tokens : List Token) : Decidable (Lexes text tokens) :=
  inferInstanceAs (Decidable (tokens? text = some tokens))

/-- Whether a text is read as a name, and not as a number or as `AND`. -/
def isName (name : String) : Bool :=
  name.toList.head?.any (!·.isDigit) && name.toList.all (fun c => isWordChar c && c.toLower = c)
    && name ≠ "and"

/-- Whether a text sticks to nothing that it stands between. -/
def separates (text : List Char) : Bool :=
  text.head?.any (!isWordChar ·) && text.getLast?.any (!isWordChar ·)

theorem sticks_eq_false_of_left {a : Char} (h : isWordChar a = false) (b : Char) :
    sticks a b = false := by
  rw [sticks, h, Bool.false_and]

theorem sticks_eq_false_of_right (a : Char) {b : Char} (h : isWordChar b = false) :
    sticks a b = false := by
  rw [sticks, h, Bool.and_false]

theorem not_isWhitespace {c : Char} (h : isWordChar c = true) : ¬ c.isWhitespace = true := by
  intro hblank
  rw [Char.isWhitespace] at hblank
  simp only [Bool.or_eq_true, decide_eq_true_eq] at hblank
  rcases hblank with ((rfl | rfl) | rfl) | rfl <;> exact absurd h (by decide)

namespace Lexes

variable {a b separator : List Char} {s t u : List Token}

theorem append (ha : Lexes a s) (hb : Lexes b t)
    (h : ∀ x ∈ a.getLast?, ∀ y ∈ b.head?, sticks x y = false) : Lexes (a ++ b) (s ++ t) := by
  rw [Lexes, tokens?] at ha hb ⊢
  rw [List.splitBy_append h, List.filter_append, List.mapM_append, ha, hb]
  rfl

theorem nil : Lexes [] [] := rfl

/-- Two texts with a separator between them. -/
theorem around (ha : Lexes a s) (hseparator : Lexes separator t) (hb : Lexes b u)
    (h : separates separator = true) : Lexes (a ++ separator ++ b) (s ++ t ++ u) := by
  rw [separates, Bool.and_eq_true, Option.any_eq_true, Option.any_eq_true] at h
  obtain ⟨⟨first, hhead, hfirst⟩, ⟨last, hgetLast, hlast⟩⟩ := h
  rw [Bool.not_eq_true'] at hfirst hlast
  refine (ha.append hseparator fun x _ y hy => ?_).append hb fun x hx y _ => ?_
  · obtain rfl := Option.some.inj (hhead.symm.trans hy)
    exact sticks_eq_false_of_right x hfirst
  · rw [List.getLast?_append, hgetLast, Option.some_or] at hx
    obtain rfl := Option.some.inj hx
    exact sticks_eq_false_of_left hlast y

/-- A text behind one that ends with no word. -/
theorem after (ha : Lexes a s) (hb : Lexes b t) (h : a.getLast?.any (!isWordChar ·) = true) :
    Lexes (a ++ b) (s ++ t) := by
  refine ha.append hb fun x hx y _ => ?_
  rw [Option.any_eq_true] at h
  obtain ⟨last, hgetLast, hlast⟩ := h
  obtain rfl := Option.some.inj (hgetLast.symm.trans hx)
  exact sticks_eq_false_of_left ((Bool.not_eq_true' _).mp hlast) y

theorem intercalate {α : Type} {text : α → List Char} {tokens : α → List Token} {items : List α}
    (hitems : ∀ item ∈ items, Lexes (text item) (tokens item)) (hseparator : Lexes separator t)
    (h : separates separator = true) :
    Lexes (separator.intercalate (items.map text)) (t.intercalate (items.map tokens)) := by
  induction items with
  | nil => rfl
  | cons first rest ih =>
    obtain ⟨hfirst, hrest⟩ := List.forall_mem_cons.1 hitems
    cases rest with
    | nil => simpa using hfirst
    | cons second rest =>
      simpa using hfirst.around hseparator (ih hrest) h

/-- Characters that all stick together are one token. -/
theorem single {chars : List Char} {token : Token} (hne : chars ≠ [])
    (hchars : ∀ c ∈ chars, isWordChar c = true) (htoken : token? chars = some token) :
    Lexes chars [token] := by
  have hchain : chars.IsChain fun x y => sticks x y = true := by
    refine List.Pairwise.isChain (List.pairwise_of_forall_mem_list fun x hx y hy => ?_)
    rw [sticks, hchars x hx, hchars y hy, Bool.and_self]
  have hkept : (!chars.all Char.isWhitespace) = true := by
    obtain ⟨c, hc⟩ := List.exists_mem_of_ne_nil chars hne
    rw [Bool.not_eq_true', List.all_eq_false]
    exact ⟨c, hc, not_isWhitespace (hchars c hc)⟩
  rw [Lexes, tokens?, List.splitBy_of_isChain hne hchain, List.filter_singleton, hkept,
    cond_true, List.mapM_cons, htoken]
  rfl

theorem number (n : Nat) : Lexes (toString n).toList [.number n] := by
  have htext : (toString n).toList = Nat.toDigits 10 n := Nat.toList_repr
  have hdigits : ∀ c ∈ Nat.toDigits 10 n, c.isDigit = true := fun c hc =>
    Nat.isDigit_of_mem_toDigits (by decide) (by decide) hc
  rw [htext]
  refine single Nat.toDigits_ne_nil (fun c hc => ?_) ?_
  · rw [isWordChar, Char.isAlphanum, hdigits c hc, Bool.or_true, Bool.true_or]
  · have hvalue : Nat.ofDigitChars 10 (Nat.toDigits 10 n) 0 = n := Nat.ofDigitChars_ten_toDigits
    have hne : Nat.toDigits 10 n ≠ [] := Nat.toDigits_ne_nil
    obtain ⟨first, rest, hchars⟩ := List.exists_cons_of_ne_nil hne
    rw [hchars] at hdigits hvalue ⊢
    obtain ⟨hfirst, hrest⟩ := List.forall_mem_cons.1 hdigits
    rw [token?, if_pos hfirst, if_pos (List.all_eq_true.2 hrest), hvalue]

theorem name {name : String} (h : isName name = true) : Lexes name.toList [.word name] := by
  simp only [isName, Bool.and_eq_true, List.all_eq_true, decide_eq_true_eq] at h
  obtain ⟨⟨hfirst, hchars⟩, -⟩ := h
  have hsmall : String.ofList (name.toList.map Char.toLower) = name := by
    rw [List.map_congr_left fun c hc => (hchars c hc).2, List.map_id', String.ofList_toList]
  cases htext : name.toList with
  | nil =>
    rw [htext] at hfirst
    cases hfirst
  | cons first rest =>
    rw [htext] at hfirst hchars hsmall
    refine single (List.cons_ne_nil first rest) (fun c hc => (hchars c hc).1) ?_
    have hdigit : ¬ first.isDigit = true := by simpa using hfirst
    rw [token?, if_neg hdigit, if_pos (hchars first List.mem_cons_self).1, hsmall]

end Lexes

end Sql

end ChainIndexer.Postgres
