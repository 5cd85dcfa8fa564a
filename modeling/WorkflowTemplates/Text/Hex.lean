/-!
# Hexadecimal bytes

A byte is written as two digits in lower case, the high half first (`encode`). Digits of either
case are read, and nothing else: no separators, no odd digit (`decode`).
-/

namespace WorkflowTemplates.Text.Hex

/-- The hexadecimal digits of the values `0` to `15`, in lower case, at their place. -/
def digits : List Char :=
  ['0', '1', '2', '3', '4', '5', '6', '7', '8', '9', 'a', 'b', 'c', 'd', 'e', 'f']

/-- The digit of the value `n`, from the list `digits`; only values below sixteen are asked for. -/
def digit (n : Nat) : Char :=
  digits.getD n '0'

/-- The value of a hexadecimal digit of either case, or nothing if `c` is no such digit. -/
def digitValue? (c : Char) : Option Nat :=
  if '0' ≤ c ∧ c ≤ '9' then some (c.toNat - '0'.toNat)
  else if 'a' ≤ c ∧ c ≤ 'f' then some (c.toNat - 'a'.toNat + 10)
  else if 'A' ≤ c ∧ c ≤ 'F' then some (c.toNat - 'A'.toNat + 10)
  else none

/-- The text of bytes: two digits of `digits` for each, the high half first. -/
def encode : List UInt8 → List Char
  | [] => []
  | b :: bytes => digit (b.toNat / 16) :: digit (b.toNat % 16) :: encode bytes

/-- The bytes that a text of digit pairs stands for. Digits of both cases are read (`digitValue?`);
an odd number of characters or any other character gives nothing. -/
def decode : List Char → Option (List UInt8)
  | [] => some []
  | [_] => none
  | h :: l :: rest =>
    match digitValue? h, digitValue? l, decode rest with
    | some high, some low, some bytes => some (UInt8.ofNat (16 * high + low) :: bytes)
    | _, _, _ => none

private theorem digitValue?_digit_all :
    ∀ n ∈ List.range 16, digitValue? (digit n) = some n := by
  decide

theorem digitValue?_digit {n : Nat} (h : n < 16) : digitValue? (digit n) = some n :=
  digitValue?_digit_all n (List.mem_range.2 h)

/-- What `encode` wrote, `decode` reads back: every list of `bytes` comes back as it was. -/
theorem decode_encode (bytes : List UInt8) : decode (encode bytes) = some bytes := by
  induction bytes with
  | nil => rfl
  | cons b bytes ih =>
    have hb : b.toNat < 256 := b.toNat_lt_size
    simp only [encode, decode, ih, digitValue?_digit (show b.toNat / 16 < 16 by omega),
      digitValue?_digit (show b.toNat % 16 < 16 by omega),
      show 16 * (b.toNat / 16) + b.toNat % 16 = b.toNat by omega, UInt8.ofNat_toNat]

theorem length_encode (bytes : List UInt8) : (encode bytes).length = 2 * bytes.length := by
  induction bytes with
  | nil => rfl
  | cons b bytes ih => simp [encode, ih]; omega

end WorkflowTemplates.Text.Hex
