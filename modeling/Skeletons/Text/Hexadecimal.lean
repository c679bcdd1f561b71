namespace Skeletons

def hexDigit (n : Nat) : Char :=
  if n < 10 then Char.ofNat ('0'.toNat + n) else Char.ofNat ('a'.toNat + (n - 10))

def hexDigits (count n : Nat) : List Char :=
  (List.range count).reverse.map fun place => hexDigit (n / Nat.pow 16 place % 16)

def hexValue? (c : Char) : Option Nat :=
  if '0' ≤ c ∧ c ≤ '9' then some (c.toNat - '0'.toNat)
  else if 'a' ≤ c ∧ c ≤ 'f' then some (c.toNat - 'a'.toNat + 10)
  else if 'A' ≤ c ∧ c ≤ 'F' then some (c.toNat - 'A'.toNat + 10)
  else none

def basedNumber? (base : Nat) (digits : List Char) : Option Nat :=
  digits.foldlM (fun n c =>
    match hexValue? c with
    | some value => if value < base then some (base * n + value) else none
    | none => none) 0

def hexCharacter? (digits : List Char) : Option Char :=
  match basedNumber? 16 digits with
  | some n => if n.isValidChar then some (Char.ofNat n) else none
  | none => none

end Skeletons
