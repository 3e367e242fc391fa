import Chip8.Text
import Chip8.Word

/-! # Keys — sets of the sixteen keys

    A set has one bit for each key.  Codes above 15 name no key: they add nothing
    to a set and are never held down. -/

namespace Chip8

/-- A set of keys, key `k` at bit `k`. -/
abbrev Keys := BitVec 16

namespace Keys

/-- The set of the one key that a code names, empty for codes above 15. -/
def ofCode (code : Byte) : Keys := if code.toNat ≤ 15 then 1#16 <<< code.toNat else 0

/-- The set with a key added. -/
def insert (keys : Keys) (code : Byte) : Keys := keys ||| ofCode code

/-- The set with a key removed. -/
def erase (keys : Keys) (code : Byte) : Keys := keys &&& ~~~ofCode code

/-- Whether the set has no key. -/
def isEmpty (keys : Keys) : Bool := keys == 0

/-- Whether the keys of the other set are all in this one. -/
def contains (keys other : Keys) : Bool := keys &&& other == other

/-- Whether the key that a code names is in the set.  The empty set is in every set,
    so a code that names no key has to be told apart. -/
def isDown (keys : Keys) (code : Byte) : Bool :=
  let key := ofCode code
  !isEmpty key && contains keys key

/-- The name of a key. -/
def keyName (k : Nat) : Text := "KEY_".toList ++ [(Nat.digitChar k).toUpper]

/-- The set as a text: the names of its keys in ascending order. -/
def text (keys : Keys) : Text :=
  if keys = 0 then "(empty)".toList
  else Text.join " | ".toList (((List.range 16).filter (keys.getLsbD ·)).map keyName)

example : text 0x402 = "KEY_1 | KEY_A".toList := by decide

theorem getLsbD_ofCode (code : Byte) (k : Nat) :
    (ofCode code).getLsbD k = (decide (k = code.toNat) && decide (code.toNat ≤ 15)) := by
  unfold ofCode
  split
  · rename_i h
    rw [Bool.eq_iff_iff]
    simp only [BitVec.getLsbD_shiftLeft, BitVec.getLsbD_one, Bool.and_eq_true,
      Bool.not_eq_true', decide_eq_true_eq, decide_eq_false_iff_not]
    omega
  · rename_i h
    simp [h]

end Keys

end Chip8
