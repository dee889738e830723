import Portability.Text.Basic

/-! Text inside strings, where a half is packed as a mark and a character that stands for it. -/

namespace Portability.Text

/-- The mark in front of what is packed: a noncharacter, which is reserved for internal use. -/
def mark : Char := Char.ofNat 0x1FFFE

def firstStandIn : Nat := 0xE000

def pack : Text → List Char
  | [] => []
  | .char c :: rest => if c = mark then mark :: mark :: pack rest else c :: pack rest
  | .half index :: rest => mark :: Char.ofNat (firstStandIn + index) :: pack rest

def unpackMarked (c : Char) : CodePoint :=
  if h : firstStandIn ≤ c.toNat ∧ c.toNat - firstStandIn < 2048 then
    .half ⟨c.toNat - firstStandIn, h.2⟩
  else .char c

def unpack : List Char → Text
  | [] => []
  | [c] => [.char c]
  | c :: d :: rest =>
    if c = mark then unpackMarked d :: unpack rest else .char c :: unpack (d :: rest)

theorem toNat_standIn (index : Fin 2048) :
    (Char.ofNat (firstStandIn + index)).toNat = firstStandIn + index := by
  have h : (firstStandIn + index.val).isValidChar := by
    simp only [Nat.isValidChar, firstStandIn]
    omega
  rw [Char.ofNat, dif_pos h]
  rfl

theorem unpackMarked_standIn (index : Fin 2048) :
    unpackMarked (Char.ofNat (firstStandIn + index)) = .half index := by
  simp [unpackMarked, toNat_standIn]

theorem unpack_cons {c : Char} (h : c ≠ mark) (cs : List Char) :
    unpack (c :: cs) = .char c :: unpack cs := by
  cases cs with
  | nil => simp [unpack]
  | cons d rest => simp [unpack, h]

theorem unpack_pack (t : Text) : unpack (pack t) = t := by
  induction t with
  | nil => rfl
  | cons p rest ih =>
    cases p with
    | half index => simp [pack, unpack, unpackMarked_standIn, ih]
    | char c =>
      by_cases h : c = mark
      · have marked : unpackMarked mark = .char mark := by decide
        simp [pack, unpack, h, marked, ih]
      · simp [pack, h, unpack_cons h, ih]

def asString (t : Text) : String := String.ofList (pack t)

def ofString (s : String) : Text := unpack s.toList

theorem ofString_asString (t : Text) : ofString (asString t) = t := by
  simp [ofString, asString, unpack_pack]

end Portability.Text

namespace Portability

def blankString (s : String) : Bool := (Text.ofString s).all Text.isBlank

end Portability
