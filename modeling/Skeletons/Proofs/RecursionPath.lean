import Mathlib.Data.List.Forall2
import Mathlib.Data.List.Induction
import Mathlib.Data.Nat.Digits.Defs
import Skeletons.RecursionPath

namespace Skeletons

def bigEndian (bytes : List UInt8) : Nat := Nat.ofDigits 256 (bytes.reverse.map UInt8.toNat)

theorem bigEndian_concat (bytes : List UInt8) (byte : UInt8) :
    bigEndian (bytes ++ [byte]) = 256 * bigEndian bytes + byte.toNat := by
  simp only [bigEndian, List.reverse_append, List.reverse_singleton, List.singleton_append, List.map_cons,
    Nat.ofDigits_cons]
  omega

theorem digits_lt (bytes : List UInt8) : ∀ digit ∈ bytes.reverse.map UInt8.toNat, digit < 256 := by
  intro digit member
  obtain ⟨byte, _, rfl⟩ := List.mem_map.mp member
  exact byte.toNat_lt

theorem bigEndian_lt (bytes : List UInt8) : bigEndian bytes < 256 ^ bytes.length := by
  have bound := Nat.ofDigits_lt_base_pow_length (by decide) (digits_lt bytes)
  rwa [List.length_map, List.length_reverse] at bound

theorem bigEndian_inj {first second : List UInt8} (length : first.length = second.length)
    (same : bigEndian first = bigEndian second) : first = second := by
  have lengths : (first.reverse.map UInt8.toNat).length = (second.reverse.map UInt8.toNat).length := by
    simpa only [List.length_map, List.length_reverse] using length
  have digits := Nat.ofDigits_inj_of_len_eq (by decide) lengths (digits_lt first) (digits_lt second) same
  have bytes := List.map_injective_iff.mpr (fun _ _ => UInt8.toNat_inj.mp) digits
  exact List.reverse_injective bytes

namespace Sha256

@[simp] theorem length_bytes64 (word : UInt64) : (bytes64 word).length = 8 := rfl

theorem length_digest (message : List UInt8) : (digest message).length = 32 := rfl

theorem bigEndian_bytes64 (word : UInt64) : bigEndian (bytes64 word) = word.toNat := by
  have bound := word.toNat_lt
  -- Each byte is a quotient by a power of two, cut to eight bits.
  simp only [bigEndian, bytes64, List.map_cons, List.map_nil, List.reverse_cons, List.reverse_nil, List.nil_append,
    List.cons_append, Nat.ofDigits_cons, Nat.ofDigits_nil, UInt64.shiftRight_zero, UInt64.toNat_toUInt8,
    UInt64.toNat_shiftRight, UInt64.reduceToNat, Nat.reduceMod, Nat.reducePow, Nat.shiftRight_eq_div_pow]
  omega

end Sha256

namespace RecursionPath

open Sha256

theorem wordOfBytes_concat (bytes : List UInt8) (byte : UInt8) :
    wordOfBytes (bytes ++ [byte]) = wordOfBytes bytes <<< 8 ||| byte.toUInt64 :=
  List.foldl_append

theorem toNat_wordOfBytes {bytes : List UInt8} (short : bytes.length ≤ 8) :
    (wordOfBytes bytes).toNat = bigEndian bytes := by
  induction bytes using List.reverseRecOn with
  | nil => rfl
  | append_singleton rest byte ih =>
    rw [List.length_append, List.length_singleton] at short
    have small : bigEndian rest < 256 ^ 7 :=
      (bigEndian_lt rest).trans_le (Nat.pow_le_pow_right (by decide) (by omega))
    have fits : bigEndian rest <<< 8 < 2 ^ 64 := by
      rw [Nat.shiftLeft_eq]
      omega
    have shifted : (wordOfBytes rest <<< 8).toNat = bigEndian rest <<< 8 := by
      rw [UInt64.toNat_shiftLeft, ih (by omega)]
      exact Nat.mod_eq_of_lt fits
    rw [wordOfBytes_concat, UInt64.toNat_or, shifted, UInt8.toNat_toUInt64,
      ← Nat.shiftLeft_add_eq_or_of_lt byte.toNat_lt, Nat.shiftLeft_eq, bigEndian_concat, Nat.mul_comm (bigEndian rest)]

theorem wordOfBytes_bytes64 (word : UInt64) : wordOfBytes (bytes64 word) = word := by
  apply UInt64.toNat_inj.mp
  rw [toNat_wordOfBytes (length_bytes64 word).le, bigEndian_bytes64]

theorem wordOfBytes_inj {first second : List UInt8} (eight : first.length = 8) (eightToo : second.length = 8)
    (same : wordOfBytes first = wordOfBytes second) : first = second := by
  apply bigEndian_inj (eight.trans eightToo.symm)
  rw [← toNat_wordOfBytes eight.le, ← toNat_wordOfBytes eightToo.le, same]

def takeWord? (bytes : List UInt8) : Option (UInt64 × List UInt8) :=
  if 8 ≤ bytes.length then some (wordOfBytes (bytes.take 8), bytes.drop 8) else none

def takeWords? : Nat → List UInt8 → Option (List UInt64 × List UInt8)
  | 0, bytes => some ([], bytes)
  | count + 1, bytes => do
    let (word, behind) ← takeWord? bytes
    let (words, rest) ← takeWords? count behind
    return (word :: words, rest)

/-- Takes a path: the number of its indices, and that many indices. -/
def take? (bytes : List UInt8) : Option (RecursionPath × List UInt8) := do
  let (count, behind) ← takeWord? bytes
  takeWords? count.toNat behind

theorem takeWord?_append (word : UInt64) (rest : List UInt8) :
    takeWord? (bytes64 word ++ rest) = some (word, rest) := by
  have enough : 8 ≤ (bytes64 word ++ rest).length := by simp
  rw [takeWord?, if_pos enough, List.take_left' (length_bytes64 word), List.drop_left' (length_bytes64 word),
    wordOfBytes_bytes64]

theorem takeWords?_append (words : List UInt64) (rest : List UInt8) :
    takeWords? words.length (words.flatMap bytes64 ++ rest) = some (words, rest) := by
  induction words with
  | nil => rfl
  | cons word others ih =>
    rw [List.length_cons, takeWords?, List.flatMap_cons, List.append_assoc, takeWord?_append]
    change (takeWords? others.length (others.flatMap bytes64 ++ rest) >>= _) = _
    rw [ih]
    rfl

/-- The bytes of a path tell by themselves where they end. -/
theorem take?_append {path : RecursionPath} (short : path.length < 2 ^ 64) (rest : List UInt8) :
    take? (path.bytes ++ rest) = some (path, rest) := by
  rw [take?, bytes, List.flatMap_cons, List.append_assoc, takeWord?_append]
  change takeWords? (UInt64.ofNat path.length).toNat (path.flatMap bytes64 ++ rest) = _
  rw [UInt64.toNat_ofNat_of_lt' short, takeWords?_append]

theorem eq_of_bytes_begin {first second : RecursionPath} (short : first.length < 2 ^ 64)
    (shortToo : second.length < 2 ^ 64) (begins : first.bytes <+: second.bytes) : first = second := by
  obtain ⟨rest, joined⟩ := begins
  have one := take?_append short rest
  have other := take?_append shortToo []
  rw [joined] at one
  rw [List.append_nil, one] at other
  exact congrArg Prod.fst (Option.some.inj other)

/-- The bytes of a path as they are meant: eight for the number of its indices and eight for each of them, the most
    significant byte first. -/
def Written (path : RecursionPath) (bytes : List UInt8) : Prop :=
  ∃ groups : List (List UInt8), bytes = groups.flatten ∧
    List.Forall₂ (fun number group => group.length = 8 ∧ bigEndian group = number)
      (path.length :: path.map UInt64.toNat) groups

theorem written_bytes {path : RecursionPath} (short : path.length < 2 ^ 64) : path.Written path.bytes := by
  refine ⟨(UInt64.ofNat path.length :: path).map bytes64, rfl, ?_⟩
  rw [List.map_cons]
  refine .cons ⟨length_bytes64 _, ?_⟩ ?_
  · rw [bigEndian_bytes64, UInt64.toNat_ofNat_of_lt' short]
  · rw [List.forall₂_map_left_iff, List.forall₂_map_right_iff, List.forall₂_same]
    intro index _
    exact ⟨length_bytes64 index, bigEndian_bytes64 index⟩

theorem id_eq_iff {first second : RecursionPath} :
    first.id = second.id ↔ (digest first.bytes).take 8 = (digest second.bytes).take 8 := by
  constructor
  · intro same
    apply wordOfBytes_inj _ _ same
    · rw [List.length_take, length_digest]
      rfl
    · rw [List.length_take, length_digest]
      rfl
  · intro alike
    rw [id, id, alike]

/-- Different paths are numbered by the digests of different bytes, neither of which begin the others, and each
    path is all that its bytes are read back to. Two of them have the same number only if two different messages
    have digests that agree in their first eight bytes. -/
theorem numbered_apart {first second : RecursionPath} (short : first.length < 2 ^ 64)
    (shortToo : second.length < 2 ^ 64) (distinct : first ≠ second) :
    (first.Written first.bytes ∧ take? first.bytes = some (first, [])) ∧
      (second.Written second.bytes ∧ take? second.bytes = some (second, [])) ∧
      first.bytes ≠ second.bytes ∧ ¬ first.bytes <+: second.bytes ∧ ¬ second.bytes <+: first.bytes ∧
      (first.id = second.id ↔ (digest first.bytes).take 8 = (digest second.bytes).take 8) := by
  have ends {path : RecursionPath} (bounded : path.length < 2 ^ 64) : take? path.bytes = some (path, []) := by
    simpa only [List.append_nil] using take?_append bounded []
  refine ⟨⟨written_bytes short, ends short⟩, ⟨written_bytes shortToo, ends shortToo⟩, ?_, ?_, ?_, id_eq_iff⟩
  · intro same
    exact distinct (eq_of_bytes_begin short shortToo (same ▸ List.prefix_rfl))
  · intro begins
    exact distinct (eq_of_bytes_begin short shortToo begins)
  · intro begins
    exact distinct (eq_of_bytes_begin shortToo short begins).symm

theorem numbered_apart_firstChild :
    let root : RecursionPath := []
    let child := root.child 0
    (root.Written root.bytes ∧ take? root.bytes = some (root, [])) ∧
      (child.Written child.bytes ∧ take? child.bytes = some (child, [])) ∧
      root.bytes ≠ child.bytes ∧ ¬ root.bytes <+: child.bytes ∧ ¬ child.bytes <+: root.bytes ∧
      (root.id = child.id ↔ (digest root.bytes).take 8 = (digest child.bytes).take 8) := by
  intro root child
  exact numbered_apart (by decide) (by decide) (by decide)

end RecursionPath

end Skeletons
