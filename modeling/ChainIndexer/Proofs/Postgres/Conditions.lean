import ChainIndexer.Proofs.Postgres.Sql

/-!
# Conditions are read as they are meant

The text of a condition is read as the comparisons that the condition stands for, whatever the names
of its columns and the numbers in it. These comparisons are true of the rows that the condition
holds of and false of all others.
-/

namespace ChainIndexer.Postgres

namespace Condition

open Sql

/-- Whether all columns of a condition are names, and tuples have some. -/
def isReadable : Condition → Bool
  | equals column _ => isName column
  | above column _ => isName column
  | both first second => first.isReadable && second.isReadable
  | tupleAbove columns => !columns.isEmpty && columns.all fun column => isName column.1

/-- Operands in parentheses. -/
def tuple (operands : List Token) : List Token :=
  .mark '(' :: [.mark ','].intercalate (operands.map fun operand => [operand]) ++ [.mark ')']

def tokens : Condition → List Token
  | equals column value => [.word column, .mark '=', .number value]
  | above column value => [.word column, .mark '>', .number value]
  | both first second => first.tokens ++ .word "and" :: second.tokens
  | tupleAbove columns =>
    tuple (columns.map fun column => .word column.1) ++ .mark '>' ::
      tuple (columns.map fun column => .number column.2)

/-- The comparisons that a condition stands for. -/
def search : Condition → Search
  | equals column value => [⟨.equal, [(.column column, .literal value)]⟩]
  | above column value => [⟨.greater, [(.column column, .literal value)]⟩]
  | both first second => first.search ++ second.search
  | tupleAbove columns =>
    [⟨.greater, columns.map fun column => (.column column.1, .literal column.2)⟩]

theorem lexes_text {condition : Condition} (h : condition.isReadable = true) :
    Lexes condition.text.toList condition.tokens := by
  induction condition with
  | equals column value =>
    rw [text, String.toList_append, String.toList_append]
    exact (Lexes.name h).around (t := [.mark '=']) rfl (.number value) rfl
  | above column value =>
    rw [text, String.toList_append, String.toList_append]
    exact (Lexes.name h).around (t := [.mark '>']) rfl (.number value) rfl
  | both first second ihFirst ihSecond =>
    obtain ⟨hfirst, hsecond⟩ := Bool.and_eq_true_iff.1 h
    rw [text, String.toList_append, String.toList_append, tokens, List.append_cons]
    exact (ihFirst hfirst).around (t := [.word "and"]) rfl (ihSecond hsecond) rfl
  | tupleAbove columns =>
    obtain ⟨-, hcolumns⟩ := Bool.and_eq_true_iff.1 h
    have hseparator : Lexes ", ".toList [.mark ','] := rfl
    have hnames : Lexes (", ".toList.intercalate (columns.map fun column => column.1.toList))
        ([.mark ','].intercalate (columns.map fun column => [.word column.1])) :=
      .intercalate (fun column hmem => .name (List.all_eq_true.1 hcolumns column hmem))
        hseparator rfl
    have hvalues : Lexes
        (", ".toList.intercalate (columns.map fun column => (toString column.2).toList))
        ([.mark ','].intercalate (columns.map fun column => [.number column.2])) :=
      .intercalate (fun column _ => .number column.2) hseparator rfl
    -- Parentheses and blanks stand between the names and the values, so no two of them stick.
    have hopen : Lexes "(".toList [.mark '('] := rfl
    have hbetween : Lexes ") > (".toList [.mark ')', .mark '>', .mark '('] := rfl
    have hclose : Lexes ")".toList [.mark ')'] := rfl
    have hall := ((hopen.after hnames rfl).around hbetween hvalues rfl).around hclose .nil rfl
    simpa [text, tokens, tuple, String.toList_intercalate, Function.comp_def] using hall

/-! ### Reading conditions -/

theorem side?_singleton {token : Token} {operand : Operand} (h : operand? [token] = some operand) :
    side? [token] = some [operand] := by
  rw [side?, h]
  · rfl
  · rintro rest ⟨rfl, -⟩
    cases h

theorem side?_tuple {α : Type} {token : α → Token} {operand : α → Operand} {items : List α}
    (hne : items ≠ []) (h : ∀ item, operand? [token item] = some (operand item)) :
    side? (tuple (items.map token)) = some (items.map operand) := by
  have hcomma : ∀ tokens ∈ (items.map token).map fun token => [token],
      Token.mark ',' ∉ tokens := by
    intro tokens htokens hmem
    simp only [List.mem_map] at htokens
    obtain ⟨_, ⟨item, -, rfl⟩, rfl⟩ := htokens
    have hread := h item
    rw [← List.mem_singleton.1 hmem] at hread
    cases hread
  have hread : ((items.map token).map fun token => [token]).mapM operand? =
      some (items.map operand) := by
    rw [List.map_map, List.mapM_map]
    exact mapM_eq_pure_map fun item _ => h item
  rw [tuple, List.cons_append, side?, List.getLast?_concat, if_pos rfl, List.dropLast_concat,
    List.splitOn_intercalate _ hcomma (by simpa using hne), hread]

theorem compared?_singletons (comparator : Comparator) {left right : Token} {a b : Operand}
    (hleft : operand? [left] = some a) (hright : operand? [right] = some b) :
    compared? comparator [left] [right] = some ⟨comparator, [(a, b)]⟩ := by
  rw [compared?, side?_singleton hleft, side?_singleton hright]
  rfl

theorem compared?_tuples (comparator : Comparator) {columns : List (String × Nat)}
    (hne : columns ≠ []) :
    compared? comparator (tuple (columns.map fun column => .word column.1))
        (tuple (columns.map fun column => .number column.2)) =
      some ⟨comparator, columns.map fun column => (.column column.1, .literal column.2)⟩ := by
  have hnames : side? (tuple (columns.map fun column => .word column.1)) =
      some (columns.map fun column => .column column.1) := side?_tuple hne fun _ => rfl
  have hvalues : side? (tuple (columns.map fun column => .number column.2)) =
      some (columns.map fun column => .literal column.2) := side?_tuple hne fun _ => rfl
  rw [compared?, hnames, hvalues]
  refine (if_pos ?_).trans (by rw [List.zip_map'])
  rw [List.length_map, List.length_map]

/-- Whether a condition is not cut at any of some tokens. -/
structure Uncut (tokens : List Token) : Prop where
  and : .word "and" ∉ tokens
  equal : .mark '=' ∉ tokens
  greater : .mark '>' ∉ tokens

section Uncut

variable {left right : List Token}

theorem search?_of_not_mem {tokens : List Token} (h : .word "and" ∉ tokens) :
    search? tokens = (comparison? tokens).map fun comparison => [comparison] := by
  rw [search?, List.splitOn_eq_singleton h, List.mapM_cons]
  cases comparison? tokens <;> rfl

theorem search?_equal (hleft : Uncut left) (hright : Uncut right) :
    search? (left ++ .mark '=' :: right) =
      (compared? .equal left right).map fun comparison => [comparison] := by
  have hand : .word "and" ∉ left ++ .mark '=' :: right := by simp [hleft.and, hright.and]
  have hgreater : .mark '>' ∉ left ++ .mark '=' :: right := by
    simp [hleft.greater, hright.greater]
  rw [search?_of_not_mem hand, comparison?,
    List.splitOn_append_cons_self_of_not_mem hleft.equal, List.splitOn_eq_singleton hright.equal,
    List.splitOn_eq_singleton hgreater]

theorem search?_greater (hleft : Uncut left) (hright : Uncut right) :
    search? (left ++ .mark '>' :: right) =
      (compared? .greater left right).map fun comparison => [comparison] := by
  have hand : .word "and" ∉ left ++ .mark '>' :: right := by simp [hleft.and, hright.and]
  have hequal : .mark '=' ∉ left ++ .mark '>' :: right := by simp [hleft.equal, hright.equal]
  rw [search?_of_not_mem hand, comparison?,
    List.splitOn_append_cons_self_of_not_mem hleft.greater,
    List.splitOn_eq_singleton hright.greater, List.splitOn_eq_singleton hequal]

theorem search?_and (first second : List Token) :
    search? (first ++ .word "and" :: second) =
      (search? first).bind fun first => (search? second).map (first ++ ·) := by
  rw [search?, List.splitOn_append_cons_self, List.mapM_append, ← search?, ← search?]
  cases search? first <;> cases search? second <;> rfl

theorem uncut_numbers {α : Type} (value : α → Nat) (items : List α) :
    Uncut (items.map fun item => .number (value item)) := by
  constructor <;> simp

theorem uncut_names {α : Type} (name : α → String) {items : List α}
    (h : ∀ item ∈ items, isName (name item) = true) :
    Uncut (items.map fun item => .word (name item)) := by
  refine ⟨fun hmem => ?_, by simp, by simp⟩
  obtain ⟨item, hitem, hand⟩ := List.mem_map.1 hmem
  have hname := h item hitem
  rw [Token.word.inj hand] at hname
  exact absurd hname (by decide)

theorem mem_or_of_mem_tuple {operands : List Token} {token : Token} (h : token ∈ tuple operands) :
    token ∈ operands ∨ token ∈ [.mark '(', .mark ',', .mark ')'] := by
  have hinner : token ∈ [Token.mark ','].intercalate (operands.map fun operand => [operand]) →
      token ∈ operands ∨ token = .mark ',' := by
    clear h
    intro h
    induction operands with
    | nil => cases h
    | cons first rest ih =>
      cases rest with
      | nil => exact .inl (by simpa using h)
      | cons second rest =>
        simp only [List.map_cons, List.intercalate_cons_cons, List.mem_append,
          List.mem_singleton] at h
        rcases h with (rfl | rfl) | hrest
        · exact .inl List.mem_cons_self
        · exact .inr rfl
        · exact (ih hrest).imp_left (List.mem_cons_of_mem _)
  simp only [tuple, List.cons_append, List.mem_cons, List.mem_append, List.not_mem_nil,
    or_false] at h ⊢
  rcases h with rfl | h | rfl
  · exact .inr (.inl rfl)
  · exact (hinner h).imp_right fun hcomma => .inr (.inl hcomma)
  · exact .inr (.inr (.inr rfl))

theorem Uncut.tuple {operands : List Token} (h : Uncut operands) :
    Uncut (Condition.tuple operands) where
  and hmem := (mem_or_of_mem_tuple hmem).elim h.and (by simp)
  equal hmem := (mem_or_of_mem_tuple hmem).elim h.equal (by simp)
  greater hmem := (mem_or_of_mem_tuple hmem).elim h.greater (by simp)

end Uncut

/-- A condition is read as what it stands for. -/
theorem search?_tokens {condition : Condition} (h : condition.isReadable = true) :
    search? condition.tokens = some condition.search := by
  induction condition with
  | equals column value =>
    have hread := search?_equal (uncut_names id (List.forall_mem_singleton.2 h))
      (uncut_numbers id [value])
    exact hread.trans (congrArg _ (compared?_singletons _ rfl rfl))
  | above column value =>
    have hread := search?_greater (uncut_names id (List.forall_mem_singleton.2 h))
      (uncut_numbers id [value])
    exact hread.trans (congrArg _ (compared?_singletons _ rfl rfl))
  | both first second ihFirst ihSecond =>
    obtain ⟨hfirst, hsecond⟩ := Bool.and_eq_true_iff.1 h
    rw [tokens, search?_and, ihFirst hfirst, ihSecond hsecond]
    rfl
  | tupleAbove columns =>
    obtain ⟨hne, hcolumns⟩ := Bool.and_eq_true_iff.1 h
    have hnames : Uncut (columns.map fun column => .word column.1) :=
      uncut_names _ fun column hmem => List.all_eq_true.1 hcolumns column hmem
    have hread := search?_greater hnames.tuple (uncut_numbers (·.2) columns).tuple
    exact hread.trans (congrArg _ (compared?_tuples _ (by simpa using hne)))

theorem ofText?_text {condition : Condition} (h : condition.isReadable = true) :
    Search.ofText? condition.text = some condition.search := by
  rw [Search.ofText?, lexes_text h, Option.bind_some, search?_tokens h]

example : Search.ofText? (tupleAbove [("block_timestamp", 100), ("chain_id", 1)]).text =
    some [⟨.greater, [(.column "block_timestamp", .literal 100),
      (.column "chain_id", .literal 1)]⟩] := by decide

/-! ### Truth -/

/-- The columns that a condition looks at. -/
def columns : Condition → List String
  | equals column _ => [column]
  | above column _ => [column]
  | both first second => first.columns ++ second.columns
  | tupleAbove columns => columns.map (·.1)

theorem order?_bigint (a b : Nat) : order? (.bigint a) (.bigint b) = some (compare a b) := by
  rw [order?]
  simp only [compare, compareOfLessAndEq, Int.ofNat_lt, Int.ofNat_inj]

theorem areEqual_singleton (a b : Nat) :
    areEqual [(.bigint a, .bigint b)] = some (decide (a = b)) := by
  rw [areEqual, order?_bigint, Option.map_some, areEqual]
  simp only [Nat.compare_eq_eq]
  cases decide (a = b) <;> rfl

theorem isGreater_map (values : String → Nat) (columns : List (String × Nat)) :
    isGreater (columns.map fun column => (.bigint (values column.1), .bigint column.2)) =
      some (isAbove values columns) := by
  induction columns with
  | nil => rfl
  | cons first rest ih =>
    rw [List.map_cons, isGreater, order?_bigint, isAbove]
    rcases Nat.lt_trichotomy (values first.1) first.2 with hlt | heq | hgt
    · have hne : first.2 ≠ values first.1 := Nat.ne_of_gt hlt
      simp [Nat.compare_eq_lt.2 hlt, Nat.le_of_lt hlt, hne]
    · simp [heq, ih]
    · simp [Nat.compare_eq_gt.2 hgt, hgt]

theorem both_assoc (a b c : Option Bool) :
    Sql.both (Sql.both a b) c = Sql.both a (Sql.both b c) := by
  rcases a with _ | _ | _ <;> rcases b with _ | _ | _ <;> rcases c with _ | _ | _ <;> rfl

theorem both_some (a b : Bool) : Sql.both (some a) (some b) = some (a && b) := by
  cases a <;> rfl

theorem truth_append (first second : Search) (row : TableRow) :
    Search.truth row (first ++ second) =
      Sql.both (Search.truth row first) (Search.truth row second) := by
  induction first with
  | nil => rfl
  | cons comparison rest ih =>
    have hcons : ∀ others : Search, Search.truth row (comparison :: others) =
        Sql.both (comparison.truth row) (Search.truth row others) := fun _ => rfl
    rw [List.cons_append, hcons, hcons, ih, both_assoc]

theorem truth_singleton (comparison : Comparison) (row : TableRow) :
    Search.truth row [comparison] = comparison.truth row := by
  change Sql.both (comparison.truth row) (some true) = _
  rcases comparison.truth row with _ | _ | _ <;> rfl

/-- A condition is true of the rows that it holds of, and false of the others. -/
theorem truth_search {row : TableRow} {values : String → Nat} {condition : Condition}
    (h : ∀ column ∈ condition.columns, row column = .bigint (values column)) :
    condition.search.truth row = some (condition.holds values) := by
  induction condition with
  | equals column value =>
    rw [search, truth_singleton, holds, ← areEqual_singleton,
      ← h column (List.mem_singleton_self column)]
    rfl
  | above column value =>
    have hgreater := isGreater_map values [(column, value)]
    rw [List.map_singleton, ← h column (List.mem_singleton_self column), isAbove, isAbove,
      Bool.and_false, Bool.or_false] at hgreater
    rw [search, truth_singleton, holds, ← hgreater]
    rfl
  | both first second ihFirst ihSecond =>
    have hfirst := ihFirst fun column hcolumn => h column (List.mem_append_left _ hcolumn)
    have hsecond := ihSecond fun column hcolumn => h column (List.mem_append_right _ hcolumn)
    rw [search, truth_append, hfirst, hsecond, both_some]
    rfl
  | tupleAbove columns =>
    rw [search, truth_singleton, holds, ← isGreater_map, Comparison.truth, List.map_map]
    refine congrArg isGreater (List.map_congr_left fun column hcolumn => ?_)
    rw [Function.comp_apply, Operand.value, Operand.value, h _ (List.mem_map_of_mem hcolumn)]

end Condition

end ChainIndexer.Postgres
