import ChainIndexer.Event.Params
import ChainIndexer.Evm.Abi.Decoding
import ChainIndexer.Proofs.Numerals
import Mathlib.Algebra.Ring.Int.Defs
import Mathlib.Algebra.Ring.Nat

/-!
# Parameter values as JSON

What a contract encodes reaches handlers as JSON. Nothing is lost on the way: integers are read back
exactly as far as the type that is asked for holds them, and two values of one type have the same
JSON only if they are the same. The type matters, as several kinds of values share a form.
-/

namespace ChainIndexer

/-! ### Integers -/

namespace Event

variable {α : Type} {event : Event} {name expected : String}

/-- What reading a parameter gives if a value fits the type that is asked for, and if not. -/
def valueIf (event : Event) (name expected : String) (fits : Prop) [Decidable fits] (value : α) :
    Except HandlerError α :=
  if fits then .ok value else .error (event.invalidParam name expected)

theorem valueIf_congr {fits other : Prop} [Decidable fits] [Decidable other] (h : fits ↔ other)
    (value : α) :
    event.valueIf name expected fits value = event.valueIf name expected other value := by
  by_cases hfits : fits
  · rw [valueIf, valueIf, if_pos hfits, if_pos (h.1 hfits)]
  · rw [valueIf, valueIf, if_neg hfits, if_neg (mt h.2 hfits)]

theorem paramBy_eq_valueIf {json : Json} {read : Json → Option α} {fits : Prop} [Decidable fits]
    {value : α} (h : event.params.get? name = some json)
    (hread : read json = if fits then some value else none) :
    event.paramBy name expected read = event.valueIf name expected fits value := by
  simp only [paramBy, param, h, hread, valueIf]
  by_cases hfits : fits <;> simp [hfits]

/-- Decimal text is read as the number that it was written for, if that is in range. -/
theorem integerParams_eq_valueIf {value : Int}
    (h : event.params.get? name = some (.str (Decimal.ofInt value))) :
    event.wordParam name =
        event.valueIf name "u64" (0 ≤ value ∧ value < 2 ^ 64) value.toNat ∧
      event.signedParam name =
        event.valueIf name "i64" (-2 ^ 63 ≤ value ∧ value < 2 ^ 63) value ∧
      event.wideParam name =
        event.valueIf name "u128" (0 ≤ value ∧ value < 2 ^ 128) value.toNat :=
  ⟨paramBy_eq_valueIf h (Decimal.nat?_ofInt value _),
    paramBy_eq_valueIf h (Decimal.int?_ofInt value _ _),
    paramBy_eq_valueIf h (Decimal.nat?_ofInt value _)⟩

end Event

namespace Evm

/-- A word that is stored as a parameter is read back exactly, as the number that it stands for, by
every reader whose type holds that number; all others call it invalid. -/
theorem stored_integers_read_exactly (event : Event) (name : String) (word : Word) :
    (event.params.get? name = some (Token.uint word).toJson →
      event.wordParam name =
          event.valueIf name "u64" (word.toNat < 2 ^ 64) word.toNat ∧
        event.signedParam name =
          event.valueIf name "i64" (word.toNat < 2 ^ 63) (word.toNat : Int) ∧
        event.wideParam name =
          event.valueIf name "u128" (word.toNat < 2 ^ 128) word.toNat) ∧
    (event.params.get? name = some (Token.int word).toJson →
      event.wordParam name =
          event.valueIf name "u64" (0 ≤ word.toInt ∧ word.toInt < 2 ^ 64) word.toInt.toNat ∧
        event.signedParam name =
          event.valueIf name "i64" (-2 ^ 63 ≤ word.toInt ∧ word.toInt < 2 ^ 63) word.toInt ∧
        event.wideParam name =
          event.valueIf name "u128" (0 ≤ word.toInt ∧ word.toInt < 2 ^ 128)
            word.toInt.toNat) := by
  refine ⟨fun h => ?_, fun h => Event.integerParams_eq_valueIf h⟩
  have htext : event.params.get? name = some (.str (Decimal.ofInt (word.toNat : Int))) := h
  obtain ⟨hword, hsigned, hwide⟩ := Event.integerParams_eq_valueIf htext
  refine ⟨hword.trans ?_, hsigned.trans ?_, hwide.trans ?_⟩
  · exact Event.valueIf_congr (by omega) _
  · exact Event.valueIf_congr (by omega) _
  · exact Event.valueIf_congr (by omega) _

/-- The least amount that takes more than 64 bits. -/
def movedAmount : Word := 0x10000000000000000#256

/-- An event with an amount of more than 64 bits, and with a change that is below zero. -/
def movedEvent : Event where
  chain := 1
  address := "0xaa"
  contract := "Token"
  name := "Moved"
  params :=
    .obj [("amount", (Token.uint movedAmount).toJson),
      ("change", (Token.int (.allOnes 256)).toJson)]
  blockHash := "0xb"
  block := 7
  timestamp := 70
  transactionHash := "0xc"
  transactionIndex := 0
  logIndex := 0

theorem stored_integers_read_moved :
    movedEvent.params.get? "amount" = some (Token.uint movedAmount).toJson ∧
      movedEvent.params.get? "change" = some (Token.int (.allOnes 256)).toJson ∧
      movedEvent.wordParam "amount" = .error (movedEvent.invalidParam "amount" "u64") ∧
      movedEvent.wideParam "amount" = .ok (2 ^ 64) ∧
      movedEvent.signedParam "change" = .ok (-1) ∧
      movedEvent.wideParam "change" = .error (movedEvent.invalidParam "change" "u128") := by
  have hamount : movedEvent.params.get? "amount" = some (Token.uint movedAmount).toJson := rfl
  have hchange : movedEvent.params.get? "change" = some (Token.int (.allOnes 256)).toJson := rfl
  obtain ⟨hword, -, hwide⟩ :=
    (stored_integers_read_exactly movedEvent "amount" movedAmount).1 hamount
  obtain ⟨-, hsigned, hnegative⟩ :=
    (stored_integers_read_exactly movedEvent "change" (.allOnes 256)).2 hchange
  exact ⟨hamount, hchange, hword.trans (if_neg (by decide)), hwide.trans (if_pos (by decide)),
    hsigned.trans (if_pos (by decide)), hnegative.trans (if_neg (by decide))⟩

/-! ### Values of a type -/

namespace AbiType

mutual

/-- Whether a token is a value of a type. An integer of any size is kept as the word it came in. -/
def admits : AbiType → Token → Bool
  | .address, .address _ => true
  | .bool, .bool _ => true
  | .string, .string _ => true
  | .bytes, .bytes _ => true
  | .int _, .int _ => true
  | .uint _, .uint _ => true
  | .fixedBytes size, .fixedBytes value => value.length ≤ size
  | .array item, .array items => items.all item.admits
  | .fixedArray item size, .fixedArray items => items.length = size && items.all item.admits
  | .tuple types, .tuple items => admitsAll types items
  | _, _ => false

/-- Whether tokens are values of some types, each of its own. -/
def admitsAll : List AbiType → List Token → Bool
  | [], [] => true
  | type :: types, item :: items => type.admits item && admitsAll types items
  | _, _ => false

end

end AbiType

namespace Token

/-- Lists are told apart by their JSON if their items are. -/
theorem toJsons_inj_of_items {admitted : Token → Bool}
    (hinj : ∀ {a b : Token}, admitted a → admitted b → (a.toJson = b.toJson ↔ a = b)) :
    ∀ {items others : List Token}, items.all admitted → others.all admitted →
      (toJsons items = toJsons others ↔ items = others)
  | [], [], _, _ => by simp
  | [], _ :: _, _, _ => by simp [toJsons]
  | _ :: _, [], _, _ => by simp [toJsons]
  | item :: items, other :: others, hitems, hothers => by
    rw [List.all_cons, Bool.and_eq_true] at hitems hothers
    rw [toJsons, toJsons, List.cons.injEq, List.cons.injEq, hinj hitems.1 hothers.1,
      toJsons_inj_of_items hinj hitems.2 hothers.2]

mutual

/-- Values of one type have the same JSON only if they are the same. -/
theorem toJson_inj_of_admits : (type : AbiType) → {a b : Token} → type.admits a → type.admits b →
    (a.toJson = b.toJson ↔ a = b)
  | .address, .address a, .address b, _, _ => by simp [toJson, Address.text_inj]
  | .bool, .bool a, .bool b, _, _ => by simp [toJson]
  | .string, .string a, .string b, _, _ => by simp [toJson]
  | .bytes, .bytes a, .bytes b, _, _ => by simp [toJson, Hex.ofBytes_inj]
  | .fixedBytes _, .fixedBytes a, .fixedBytes b, _, _ => by simp [toJson, Hex.ofBytes_inj]
  | .int _, .int a, .int b, _, _ => by simp [toJson, Decimal.ofInt_inj, BitVec.toInt_inj]
  | .uint _, .uint a, .uint b, _, _ => by simp [toJson, Decimal.ofNat_inj, BitVec.toNat_inj]
  | .array item, .array items, .array others, ha, hb => by
    rw [toJson, toJson, Json.arr.injEq, array.injEq]
    exact toJsons_inj_of_items (toJson_inj_of_admits item) ha hb
  | .fixedArray item _, .fixedArray items, .fixedArray others, ha, hb => by
    rw [AbiType.admits, Bool.and_eq_true] at ha hb
    rw [toJson, toJson, Json.arr.injEq, fixedArray.injEq]
    exact toJsons_inj_of_items (toJson_inj_of_admits item) ha.2 hb.2
  | .tuple types, .tuple items, .tuple others, ha, hb => by
    rw [toJson, toJson, Json.arr.injEq, tuple.injEq]
    exact toJsons_inj_of_admitsAll types ha hb

theorem toJsons_inj_of_admitsAll : (types : List AbiType) → {items others : List Token} →
    AbiType.admitsAll types items → AbiType.admitsAll types others →
    (toJsons items = toJsons others ↔ items = others)
  | [], [], [], _, _ => by simp
  | type :: types, item :: items, other :: others, hitems, hothers => by
    rw [AbiType.admitsAll, Bool.and_eq_true] at hitems hothers
    rw [toJsons, toJsons, List.cons.injEq, List.cons.injEq,
      toJson_inj_of_admits type hitems.1 hothers.1,
      toJsons_inj_of_admitsAll types hitems.2 hothers.2]

end

end Token

/-! ### Values that are read -/

theorem all_of_readTimes {read : Reading Token} {admitted : Token → Bool}
    (hread : ∀ {data : List UInt8} {offset : Nat} {token : Token} {next : Nat},
      read data offset = some (token, next) → admitted token) :
    ∀ {times : Nat} {data : List UInt8} {offset : Nat} {items : List Token} {next : Nat},
      readTimes read times data offset = some (items, next) →
        items.length = times ∧ items.all admitted
  | 0, data, offset, items, next, h => by
    cases h
    exact ⟨rfl, rfl⟩
  | times + 1, data, offset, items, next, h => by
    rw [readTimes] at h
    obtain ⟨⟨item, between⟩, hitem, h⟩ := Option.bind_eq_some_iff.1 h
    obtain ⟨⟨rest, last⟩, hrest, h⟩ := Option.bind_eq_some_iff.1 h
    cases h
    obtain ⟨hlength, hall⟩ := all_of_readTimes hread hrest
    exact ⟨by rw [List.length_cons, hlength], by rw [List.all_cons, hread hitem, hall]; rfl⟩

theorem readCompound_eq_some {isDynamic : Bool} {read : Reading (List Token)} {data : List UInt8}
    {offset next : Nat} {items : List Token}
    (h : readCompound isDynamic read data offset = some (items, next)) :
    ∃ part start last, read part start = some (items, last) := by
  cases isDynamic with
  | false => exact ⟨data, offset, next, h⟩
  | true =>
    obtain ⟨start, -, h⟩ := Option.bind_eq_some_iff.1 h
    split at h
    · cases h
    · obtain ⟨⟨read, last⟩, hread, h⟩ := Option.bind_eq_some_iff.1 h
      cases h
      exact ⟨_, 0, last, hread⟩

namespace AbiType

mutual

/-- What is read as a value of a type is one. -/
theorem admits_of_read : (type : AbiType) → {data : List UInt8} → {offset : Nat} →
    {token : Token} → {next : Nat} → type.read data offset = some (token, next) →
    type.admits token
  | .address, data, offset, token, next, h => by
    obtain ⟨word, -, h⟩ := Option.bind_eq_some_iff.1 h
    cases h
    rfl
  | .bool, data, offset, token, next, h => by
    obtain ⟨word, -, h⟩ := Option.bind_eq_some_iff.1 h
    split at h
    · cases h
    · cases h
      rfl
  | .string, data, offset, token, next, h => by
    obtain ⟨bytes, -, h⟩ := Option.bind_eq_some_iff.1 h
    cases h
    rfl
  | .bytes, data, offset, token, next, h => by
    obtain ⟨bytes, -, h⟩ := Option.bind_eq_some_iff.1 h
    cases h
    rfl
  | .int _, data, offset, token, next, h => by
    obtain ⟨word, -, h⟩ := Option.bind_eq_some_iff.1 h
    cases h
    rfl
  | .uint _, data, offset, token, next, h => by
    obtain ⟨word, -, h⟩ := Option.bind_eq_some_iff.1 h
    cases h
    rfl
  | .fixedBytes size, data, offset, token, next, h => by
    obtain ⟨bytes, hbytes, h⟩ := Option.bind_eq_some_iff.1 h
    cases h
    rw [bytesAt] at hbytes
    split at hbytes
    · cases hbytes
      exact decide_eq_true (List.length_take_le size _)
    · cases hbytes
  | .array item, data, offset, token, next, h => by
    obtain ⟨start, -, h⟩ := Option.bind_eq_some_iff.1 h
    obtain ⟨length, -, h⟩ := Option.bind_eq_some_iff.1 h
    obtain ⟨⟨items, last⟩, hitems, h⟩ := Option.bind_eq_some_iff.1 h
    cases h
    exact (all_of_readTimes (admits_of_read item) hitems).2
  | .fixedArray item size, data, offset, token, next, h => by
    obtain ⟨⟨items, last⟩, hitems, h⟩ := Option.bind_eq_some_iff.1 h
    cases h
    obtain ⟨part, start, last, hitems⟩ := readCompound_eq_some hitems
    obtain ⟨hlength, hall⟩ := all_of_readTimes (admits_of_read item) hitems
    simp [admits, hlength, hall]
  | .tuple types, data, offset, token, next, h => by
    obtain ⟨⟨items, last⟩, hitems, h⟩ := Option.bind_eq_some_iff.1 h
    cases h
    obtain ⟨part, start, last, hitems⟩ := readCompound_eq_some hitems
    exact admitsAll_of_readAll types hitems

theorem admitsAll_of_readAll : (types : List AbiType) → {data : List UInt8} → {offset : Nat} →
    {items : List Token} → {next : Nat} → readAll types data offset = some (items, next) →
    admitsAll types items
  | [], data, offset, items, next, h => by
    cases h
    rfl
  | type :: types, data, offset, items, next, h => by
    obtain ⟨⟨item, between⟩, hitem, h⟩ := Option.bind_eq_some_iff.1 h
    obtain ⟨⟨rest, last⟩, hrest, h⟩ := Option.bind_eq_some_iff.1 h
    cases h
    rw [admitsAll, admits_of_read type hitem, admitsAll_of_readAll types hrest]
    rfl

end

end AbiType

/-- The JSON of a value tells it apart from every other value of its type, and all that is read as a
value of a type is one. -/
theorem json_tells_values_apart (type : AbiType) :
    (∀ {a b : Token}, type.admits a → type.admits b → (a.toJson = b.toJson ↔ a = b)) ∧
      ∀ {data : List UInt8} {offset : Nat} {token : Token} {next : Nat},
        type.read data offset = some (token, next) → type.admits token :=
  ⟨Token.toJson_inj_of_admits type, type.admits_of_read⟩

/-- A type with another one in it, and an integer that is read with its sign. -/
def nestedType : AbiType := .tuple [.array (.int 8), .fixedBytes 2, .uint 256]

/-- A value of it; its first item is one below zero or not. -/
def nestedToken (isNegative : Bool) : Token :=
  .tuple [.array [.int (if isNegative then .allOnes 256 else 1#256)], .fixedBytes [0x0A, 0xFF],
    .uint (.allOnes 256)]

/-- A value that is read from two words. -/
def flagsToken : Token := .fixedArray [.bool false, .bool true]

theorem json_tells_nested_values_apart :
    nestedType.admits (nestedToken true) ∧ nestedType.admits (nestedToken false) ∧
      (nestedToken true).toJson ≠ (nestedToken false).toJson ∧
      (AbiType.fixedArray .bool 2).read ([0#256, 1#256].flatMap Word.toBytes) 0 =
        some (flagsToken, 64) ∧
      (AbiType.fixedArray .bool 2).admits flagsToken := by
  have hnegative : nestedType.admits (nestedToken true) := rfl
  have hpositive : nestedType.admits (nestedToken false) := rfl
  have hread : (AbiType.fixedArray .bool 2).read ([0#256, 1#256].flatMap Word.toBytes) 0 =
      some (flagsToken, 64) := rfl
  refine ⟨hnegative, hpositive, fun hsame => ?_, hread, (json_tells_values_apart _).2 hread⟩
  have hword := ((json_tells_values_apart nestedType).1 hnegative hpositive).1 hsame
  simp [nestedToken] at hword

/-- Values of different types may have the same JSON. -/
example : (Token.bytes [0x0A]).toJson = (Token.string "0x0a").toJson := rfl

end Evm

end ChainIndexer
