/-! Text is made of characters and of halves of surrogate pairs, which escapes may name. -/

namespace Portability

inductive CodePoint
  | char (c : Char)
  | half (index : Fin 2048)
  deriving DecidableEq, Repr

namespace CodePoint

def firstHalf : Nat := 0xD800

def number : CodePoint → Nat
  | char c => c.toNat
  | half index => firstHalf + index

def isHalf : CodePoint → Bool
  | char _ => false
  | half _ => true

def ofNumber (n : Nat) : CodePoint :=
  if h : firstHalf ≤ n ∧ n - firstHalf < 2048 then half ⟨n - firstHalf, h.2⟩
  else char (Char.ofNat n)

instance : LT CodePoint := ⟨fun a b => a.number < b.number⟩

instance : DecidableLT CodePoint := fun a b => inferInstanceAs (Decidable (a.number < b.number))

theorem firstHalf_le_toNat_sub (c : Char) (h : firstHalf ≤ c.toNat) :
    2048 ≤ c.toNat - firstHalf := by
  have v : c.toNat < 0xD800 ∨ 0xDFFF < c.toNat ∧ c.toNat < 0x110000 := c.valid
  simp only [firstHalf] at *
  omega

theorem ofNumber_number (p : CodePoint) : ofNumber p.number = p := by
  cases p with
  | half index => simp [ofNumber, number]
  | char c =>
    have h : ¬(firstHalf ≤ c.toNat ∧ c.toNat - firstHalf < 2048) := by
      have := firstHalf_le_toNat_sub c
      omega
    simp [ofNumber, number, h, Char.ofNat_toNat]

theorem number_inj {p q : CodePoint} : p.number = q.number ↔ p = q :=
  ⟨fun h => by rw [← ofNumber_number p, h, ofNumber_number], fun h => by rw [h]⟩

end CodePoint

end Portability
