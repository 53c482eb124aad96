import Mathlib.Data.Nat.Bitwise
import Vts.Python.Exceptions

/-!
# Fields that share an integer

The methods of `_Sym`, `_32_Rel` and `_64_Rel` of `utils/python/library/elf/structs.py`. They read
and write one unsigned integer of the structure, `st_info` or `r_info`, which holds two fields.

Proved here: the fields of the relocations can be read back, are independent and are left as they
are when they are set to their own values. The setters of `_Sym` call a method that `_Sym` does
not have.
-/

namespace Vts.Elf

open Python (Exception)

/-! ## The methods -/

section

variable {bits : Nat}

/-- `self.info >> shift` -/
def upper (shift : Nat) (info : BitVec bits) : Nat := info.toNat >>> shift

/-- `self.info & mask` -/
def lower (mask : Nat) (info : BitVec bits) : Nat := info.toNat &&& mask

/-- `self.info = (high << shift) | (low & mask)` -/
def packed (bits shift mask high low : Nat) : BitVec bits :=
  BitVec.ofNat bits ((high <<< shift) ||| (low &&& mask))

/-- The methods of two arguments that a class has, by their names. -/
abbrev Methods (bits : Nat) := String → Option (Nat → Nat → BitVec bits)

/-- `self.name(high, low)` -/
def call (methods : Methods bits) (name : String) (high low : Nat) :
    Except Exception (BitVec bits) :=
  match methods name with
  | some method => .ok (method high low)
  | none => .error .attributeError

end

namespace SymInfo

variable (st_info : BitVec 8)

def GetBinding : Nat := upper 4 st_info

def GetType : Nat := lower 0xf st_info

def SetBindingAndType (binding type_ : Nat) : BitVec 8 := packed 8 4 0xf binding type_

def methods : Methods 8 := fun name =>
  if name = "SetBindingAndType" then some SetBindingAndType else none

def SetBinding (binding : Nat) : Except Exception (BitVec 8) :=
  call methods "SetSymbolAndType" binding (GetType st_info)

def SetType (type_ : Nat) : Except Exception (BitVec 8) :=
  call methods "SetSymbolAndType" (GetBinding st_info) type_

end SymInfo

namespace Rel32Info

variable (r_info : BitVec 32)

def GetSymbol : Nat := upper 8 r_info

def GetType : Nat := lower 0xff r_info

def SetSymbolAndType (symndx type_ : Nat) : BitVec 32 := packed 32 8 0xff symndx type_

def methods : Methods 32 := fun name =>
  if name = "SetSymbolAndType" then some SetSymbolAndType else none

def SetSymbol (symndx : Nat) : Except Exception (BitVec 32) :=
  call methods "SetSymbolAndType" symndx (GetType r_info)

def SetType (type_ : Nat) : Except Exception (BitVec 32) :=
  call methods "SetSymbolAndType" (GetSymbol r_info) type_

end Rel32Info

namespace Rel64Info

variable (r_info : BitVec 64)

def GetSymbol : Nat := upper 32 r_info

def GetType : Nat := lower 0xffffffff r_info

def SetSymbolAndType (symndx type_ : Nat) : BitVec 64 := packed 64 32 0xffffffff symndx type_

def methods : Methods 64 := fun name =>
  if name = "SetSymbolAndType" then some SetSymbolAndType else none

def SetSymbol (symndx : Nat) : Except Exception (BitVec 64) :=
  call methods "SetSymbolAndType" symndx (GetType r_info)

def SetType (type_ : Nat) : Except Exception (BitVec 64) :=
  call methods "SetSymbolAndType" (GetSymbol r_info) type_

end Rel64Info

/-! ## The laws -/

/-- What getters and setters of two fields are to obey, for values below the two limits. -/
structure LensLaws {Info : Type} (getHigh getLow : Info → Nat)
    (setHigh setLow : Info → Nat → Except Exception Info) (highLimit lowLimit : Nat) : Prop where
  high : ∀ info, ∀ value < highLimit, ∃ after, setHigh info value = .ok after ∧
    getHigh after = value ∧ getLow after = getLow info
  low : ∀ info, ∀ value < lowLimit, ∃ after, setLow info value = .ok after ∧
    getLow after = value ∧ getHigh after = getHigh info
  highSame : ∀ info, setHigh info (getHigh info) = .ok info
  lowSame : ∀ info, setLow info (getLow info) = .ok info

section

variable {shift width high low : Nat} (info : BitVec (width + shift))

theorem upper_lt : upper shift info < 2 ^ width := by
  rw [upper, Nat.shiftRight_eq_div_pow, Nat.div_lt_iff_lt_mul (Nat.two_pow_pos _), ← Nat.pow_add]
  exact info.isLt

theorem lower_eq : lower (2 ^ shift - 1) info = info.toNat % 2 ^ shift :=
  Nat.and_two_pow_sub_one_eq_mod _ _

/-- The two fields stand one above the other. -/
theorem toNat_packed (highFits : high < 2 ^ width) :
    (packed (width + shift) shift (2 ^ shift - 1) high low).toNat =
      high * 2 ^ shift + low % 2 ^ shift := by
  have below : low % 2 ^ shift < 2 ^ shift := Nat.mod_lt _ (Nat.two_pow_pos _)
  have room : (high + 1) * 2 ^ shift ≤ 2 ^ width * 2 ^ shift :=
    Nat.mul_le_mul_right _ highFits
  rw [packed, Nat.and_two_pow_sub_one_eq_mod, ← Nat.shiftLeft_add_eq_or_of_lt below,
    Nat.shiftLeft_eq, BitVec.toNat_ofNat]
  apply Nat.mod_eq_of_lt
  rw [Nat.pow_add]
  rw [Nat.add_mul] at room
  omega

theorem upper_packed (highFits : high < 2 ^ width) :
    upper shift (packed (width + shift) shift (2 ^ shift - 1) high low) = high := by
  rw [upper, toNat_packed highFits, Nat.shiftRight_eq_div_pow, Nat.mul_comm,
    Nat.mul_add_div (Nat.two_pow_pos _), Nat.div_eq_of_lt (Nat.mod_lt _ (Nat.two_pow_pos _)),
    Nat.add_zero]

theorem lower_packed (highFits : high < 2 ^ width) :
    lower (2 ^ shift - 1) (packed (width + shift) shift (2 ^ shift - 1) high low) =
      low % 2 ^ shift := by
  rw [lower_eq, toNat_packed highFits, Nat.mul_comm, Nat.mul_add_mod, Nat.mod_mod]

theorem packed_fields :
    packed (width + shift) shift (2 ^ shift - 1) (upper shift info)
      (lower (2 ^ shift - 1) info) = info := by
  apply BitVec.eq_of_toNat_eq
  rw [toNat_packed (upper_lt info), lower_eq, Nat.mod_mod, upper, Nat.shiftRight_eq_div_pow]
  exact Nat.div_add_mod' _ _

/-- Setters that put a new field beside the other one obey the laws. -/
theorem lensLaws_packed (shift width : Nat) :
    LensLaws (upper shift) (lower (2 ^ shift - 1))
      (fun (info : BitVec (width + shift)) high =>
        .ok (packed _ shift (2 ^ shift - 1) high (lower (2 ^ shift - 1) info)))
      (fun info low => .ok (packed _ shift (2 ^ shift - 1) (upper shift info) low))
      (2 ^ width) (2 ^ shift) where
  high info value fits := by
    refine ⟨_, rfl, upper_packed fits, ?_⟩
    rw [lower_packed fits, lower_eq, Nat.mod_mod]
  low info value fits := by
    refine ⟨_, rfl, ?_, upper_packed (upper_lt info)⟩
    rw [lower_packed (upper_lt info), Nat.mod_eq_of_lt fits]
  highSame info := congrArg _ (packed_fields info)
  lowSame info := congrArg _ (packed_fields info)

end

/-! ## The three classes -/

inductive InfoClass where
  | sym
  | rel32
  | rel64
deriving DecidableEq

/-- The methods of a class obey the laws, for all values that its fields have room for. -/
def InfoClass.Lawful : InfoClass → Prop
  | .sym => LensLaws SymInfo.GetBinding SymInfo.GetType SymInfo.SetBinding SymInfo.SetType
      (2 ^ 4) (2 ^ 4)
  | .rel32 => LensLaws Rel32Info.GetSymbol Rel32Info.GetType Rel32Info.SetSymbol
      Rel32Info.SetType (2 ^ 24) (2 ^ 8)
  | .rel64 => LensLaws Rel64Info.GetSymbol Rel64Info.GetType Rel64Info.SetSymbol
      Rel64Info.SetType (2 ^ 32) (2 ^ 32)

theorem call_own {bits : Nat} (name : String) (method : Nat → Nat → BitVec bits) (high low : Nat) :
    call (fun called => if called = name then some method else none) name high low =
      .ok (method high low) := by
  simp [call]

theorem lawful_rel32 : InfoClass.rel32.Lawful := by
  have setSymbol : Rel32Info.SetSymbol =
      fun info high => .ok (packed 32 8 0xff high (lower 0xff info)) :=
    funext₂ fun _ _ => call_own _ _ _ _
  have setType : Rel32Info.SetType =
      fun info low => .ok (packed 32 8 0xff (upper 8 info) low) :=
    funext₂ fun _ _ => call_own _ _ _ _
  rw [InfoClass.Lawful, setSymbol, setType]
  exact lensLaws_packed 8 24

theorem lawful_rel64 : InfoClass.rel64.Lawful := by
  have setSymbol : Rel64Info.SetSymbol =
      fun info high => .ok (packed 64 32 0xffffffff high (lower 0xffffffff info)) :=
    funext₂ fun _ _ => call_own _ _ _ _
  have setType : Rel64Info.SetType =
      fun info low => .ok (packed 64 32 0xffffffff (upper 32 info) low) :=
    funext₂ fun _ _ => call_own _ _ _ _
  rw [InfoClass.Lawful, setSymbol, setType]
  exact lensLaws_packed 32 32

/-- `_Sym` has a method `SetBindingAndType` only. -/
theorem call_sym (high low : Nat) :
    call SymInfo.methods "SetSymbolAndType" high low = .error .attributeError := by
  simp [call, SymInfo.methods]

/-- The relocations obey the laws. A symbol's field cannot be set at all. -/
theorem lawful_iff (infoClass : InfoClass) :
    (infoClass.Lawful ↔ infoClass ≠ .sym) ∧
      ∀ st_info value, SymInfo.SetBinding st_info value = .error .attributeError ∧
        SymInfo.SetType st_info value = .error .attributeError := by
  refine ⟨?_, fun _ _ => ⟨call_sym _ _, call_sym _ _⟩⟩
  cases infoClass with
  | sym =>
    refine iff_of_false (fun laws => ?_) (not_not_intro rfl)
    have failed := (call_sym _ _).symm.trans (laws.highSame 0)
    cases failed
  | rel32 => exact iff_of_true lawful_rel32 (by decide)
  | rel64 => exact iff_of_true lawful_rel64 (by decide)

theorem not_lawful_sym : SymInfo.SetType 0x12 1 = .error .attributeError ∧
    ¬ InfoClass.sym.Lawful := by
  refine ⟨call_sym _ _, fun laws => ?_⟩
  obtain ⟨after, set, _⟩ := laws.low 0x12 1 (by decide)
  cases (call_sym _ _).symm.trans set

end Vts.Elf
