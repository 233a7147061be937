/-
  SeerDIOBoard.Chassis.Selection — what `CChassisDevice::setProtocol` tells its caller,
  over every sequence of brands.

  It remembers the byte it was last called with, before it knows what comes of it, and
  answers a repeated byte with true. The constructor leaves that byte as the memory is. The
  brands whose driver is not built are accepted with no driver, and a brand it does not
  know takes the driver away before it is refused.

  `selection_iff`: its answers are right over a sequence exactly when every call either
  repeats the byte while there is a driver, or asks for another brand that is built, or
  for one that is not known while there is no driver to lose.
-/

import SeerDIOBoard.Lib.Machine
import SeerDIOBoard.Chassis.Config

namespace SeerDIOBoard.Chassis

open Lib.Machine
open SeerDIOBoard.Can

variable {F : Type}

/-! ## Brands -/

/-- The brand a driver was built for. -/
def driverBrand (d : CDriverCanProtocol) : Nat :=
  match d.cls with
  | .copleyCAN .speedMode => CChassisDevice.protocolCanOpen
  | .copleyCAN .positionMode => CChassisDevice.protocolCanOpenPosition
  | .jingZhiCanopen _ => CChassisDevice.protocolJingZhiCanopen

theorem builtDriver_brand {brand n : Nat} {d : CDriverCanProtocol} (h : builtDriver brand n = some d) :
    driverBrand d = brand := by
  unfold builtDriver at h
  split at h
  case isTrue hb =>
    rw [← Option.some.inj h, hb]
    rfl
  split at h
  case isTrue hb =>
    rw [← Option.some.inj h, hb]
    rfl
  split at h
  case isTrue hb =>
    rw [← Option.some.inj h, hb]
    rfl
  case isFalse => cases h

/-- The brands `setProtocol` has a branch for; the tenth (Curtis) has none. -/
def known (brand : Nat) : Prop := 1 ≤ brand ∧ brand ≤ 13 ∧ brand ≠ 10

instance (brand : Nat) : Decidable (known brand) := inferInstanceAs (Decidable (_ ∧ _ ∧ _))

theorem known_of_supported {brand : Nat} (h : supported brand) : known brand := by
  rcases h with rfl | rfl | rfl
  · decide
  · decide
  · decide

/-- The branches of `setProtocol` behind the test of the byte. -/
theorem setProtocol_known {c : CChassisDevice F} {brand : Nat} (n : Nat) (hp : c.protocol ≠ brand) :
    (c.setProtocol brand n).1 = true ↔ known brand := by
  unfold CChassisDevice.setProtocol
  rw [if_neg hp]
  by_cases hk : known brand
  · refine iff_of_true ?_ hk
    obtain ⟨h1, h13, h10⟩ := hk
    obtain rfl | rfl | rfl | rfl | rfl | rfl | rfl | rfl | rfl | rfl | rfl | rfl :
      brand = 1 ∨ brand = 2 ∨ brand = 3 ∨ brand = 4 ∨ brand = 5 ∨ brand = 6 ∨ brand = 7 ∨ brand = 8 ∨ brand = 9 ∨
        brand = 11 ∨ brand = 12 ∨ brand = 13 := by omega
    all_goals rfl
  · refine iff_of_false ?_ hk
    have hne : ∀ k, known k → ¬ k = brand := fun k hknown he => hk (he ▸ hknown)
    dsimp only
    rw [if_neg (hne CChassisDevice.protocolRL (by decide)), if_neg (hne CChassisDevice.protocolCanOpen (by decide)),
      if_neg (hne CChassisDevice.protocolCastdservo (by decide)), if_neg (hne CChassisDevice.protocolKeya (by decide)),
      if_neg (hne CChassisDevice.protocolCanOpenPosition (by decide)),
      if_neg (hne CChassisDevice.protocolHLS (by decide)),
      if_neg (hne CChassisDevice.protocolDeltaCanopen (by decide)),
      if_neg (hne CChassisDevice.protocolKincoCanopen (by decide)),
      if_neg (hne CChassisDevice.protocolHlsCanopen (by decide)),
      if_neg (hne CChassisDevice.protocolMotecCanopen (by decide)),
      if_neg (hne CChassisDevice.protocolJingZhiCanopen (by decide)),
      if_neg (hne CChassisDevice.protocolMingZhiCanopen (by decide))]
    exact Bool.false_ne_true

/-! ## Requests -/

/-- A call of `setProtocol`: the `driverBrand` of a message, and the wheels known then. -/
structure Request where
  driverBrand : Int
  wheels : Nat

def Request.brand (r : Request) : Nat := brandArg r.driverBrand

def select (c : CChassisDevice F) (r : Request) : CChassisDevice F := (c.setProtocol r.brand r.wheels).2

/-- The driver selected is one of the brand. -/
def Drives (c : CChassisDevice F) (brand : Nat) : Prop := ∃ d, c.driverProtocol = some d ∧ driverBrand d = brand

/-- True means a driver of the brand, and false that nothing was taken away. -/
structure Honest (c : CChassisDevice F) (r : Request) : Prop where
  truthful : (c.setProtocol r.brand r.wheels).1 = true ↔ Drives (select c r) r.brand
  kept : (c.setProtocol r.brand r.wheels).1 = false → (select c r).driverProtocol = c.driverProtocol

/-- The requests that are answered right. -/
def Answerable (c : CChassisDevice F) (r : Request) : Prop :=
  if c.protocol = r.brand then c.driverProtocol ≠ none
  else supported r.brand ∨ (¬ known r.brand ∧ c.driverProtocol = none)

/-- The driver is one of the brand remembered. -/
def Remembers (c : CChassisDevice F) : Prop := ∀ d, c.driverProtocol = some d → driverBrand d = c.protocol

theorem select_again {c : CChassisDevice F} {r : Request} (hp : c.protocol = r.brand) :
    c.setProtocol r.brand r.wheels = (true, c) := if_pos hp

theorem select_other {c : CChassisDevice F} {r : Request} (hp : c.protocol ≠ r.brand) :
    select c r = { c with protocol := r.brand, driverProtocol := builtDriver r.brand r.wheels } :=
  (setProtocol_eq c r.brand r.wheels).trans (if_neg hp)

theorem remembers_select {c : CChassisDevice F} (h : Remembers c) (r : Request) : Remembers (select c r) := by
  by_cases hp : c.protocol = r.brand
  · unfold select
    rw [select_again hp]
    exact h
  · rw [select_other hp]
    intro d hd
    exact builtDriver_brand hd

/-- Another brand: there is a driver afterwards if it is built. -/
theorem drives_other {c : CChassisDevice F} {r : Request} (hp : c.protocol ≠ r.brand) :
    Drives (select c r) r.brand ↔ supported r.brand := by
  rw [← builtDriver_isSome r.brand r.wheels, select_other hp, Option.isSome_iff_exists]
  constructor
  · intro ⟨d, hd, _⟩
    exact ⟨d, hd⟩
  · intro ⟨d, hd⟩
    exact ⟨d, hd, builtDriver_brand hd⟩

/-- A repeated byte is answered with true, which is right while there is a driver. -/
theorem honest_again {c : CChassisDevice F} (h : Remembers c) {r : Request} (hp : c.protocol = r.brand) :
    Honest c r ↔ c.driverProtocol ≠ none := by
  have hsame : select c r = c := congrArg Prod.snd (select_again hp)
  have htrue : (c.setProtocol r.brand r.wheels).1 = true := congrArg Prod.fst (select_again hp)
  rw [← Option.isSome_iff_ne_none, Option.isSome_iff_exists]
  constructor
  · intro hh
    obtain ⟨d, hd, _⟩ := hh.truthful.mp htrue
    rw [hsame] at hd
    exact ⟨d, hd⟩
  · intro ⟨d, hd⟩
    refine ⟨iff_of_true htrue ⟨d, ?_, (h d hd).trans hp⟩, fun hf => ?_⟩
    · rw [hsame]
      exact hd
    · rw [htrue] at hf
      cases hf

theorem honest_other {c : CChassisDevice F} {r : Request} (hp : c.protocol ≠ r.brand) :
    Honest c r ↔ supported r.brand ∨ (¬ known r.brand ∧ c.driverProtocol = none) := by
  have hret := setProtocol_known r.wheels hp
  have hno : ¬ known r.brand → (select c r).driverProtocol = none := by
    intro hk
    rw [select_other hp, ← Option.not_isSome_iff_eq_none, builtDriver_isSome]
    exact fun hs => hk (known_of_supported hs)
  constructor
  · intro hh
    by_cases hk : known r.brand
    · exact .inl ((drives_other hp).mp (hh.truthful.mp (hret.mpr hk)))
    · -- the driver is gone, and so it was before
      have hkept := hh.kept (Bool.eq_false_iff.mpr fun ht => hk (hret.mp ht))
      exact .inr ⟨hk, hkept.symm.trans (hno hk)⟩
  · rintro (hs | ⟨hk, hnone⟩)
    · have htrue := hret.mpr (known_of_supported hs)
      refine ⟨iff_of_true htrue ((drives_other hp).mpr hs), fun hf => ?_⟩
      rw [htrue] at hf
      cases hf
    · have hs : ¬ supported r.brand := fun hs => hk (known_of_supported hs)
      refine ⟨iff_of_false (fun ht => hk (hret.mp ht)) fun hd => hs ((drives_other hp).mp hd), fun _ => ?_⟩
      rw [hno hk, hnone]

theorem honest_iff {c : CChassisDevice F} (h : Remembers c) (r : Request) : Honest c r ↔ Answerable c r := by
  unfold Answerable
  by_cases hp : c.protocol = r.brand
  · rw [if_pos hp]
    exact honest_again h hp
  · rw [if_neg hp]
    exact honest_other hp

/-! ## Sequences -/

theorem selection_iff [Zero F] (protocol : Nat) (retVal : Nat → Int) (retTyp : Nat → MotorDriverCmdType)
    (rs : List Request) :
    Along select Honest (CChassisDevice.new protocol retVal retTyp : CChassisDevice F) rs ↔
      Along select Answerable (CChassisDevice.new protocol retVal retTyp : CChassisDevice F) rs := by
  refine along_iff_of_inv (I := Remembers) (fun _ r h _ => remembers_select h r) (fun _ r h => honest_iff h r) rs _ ?_
  intro d hd
  cases hd

/-- A driver is selected, then a brand that nobody knows takes it away. -/
theorem unknown_brand_drops_driver :
    ¬ Along select Honest (CChassisDevice.new 0 (fun _ => 0) fun _ => .null : CChassisDevice ℚ)
      [⟨2, 2⟩, ⟨200, 2⟩] := by
  intro h
  have hkept := h.2.1.kept rfl
  cases hkept

end SeerDIOBoard.Chassis
