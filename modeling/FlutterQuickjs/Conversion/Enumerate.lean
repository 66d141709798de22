import FlutterQuickjs.Conversion.Calm
import FlutterQuickjs.Binding.Plain

namespace FlutterQuickjs.Conversion

open Engine Binding ValueConverter
open Effect

/-- Fills nothing that was there before. -/
abbrev Unfilled : Nat → Prop := fun _ => False

section

variable {c : Nat} {fills : Nat → Prop} {S : Setting Op Reply World} {ctx : Ctx} {val : Ptr}
  {w w' : World}

/-- Entering a container under a free address. -/
theorem tends_cache {o : ObjRef} {d : DartVal} (free : cacheAt w c o.address = none)
    (there : ∀ m, d = .map m → m < w.maps.length) : Tends c fills w (w.cache c o d) := by
  intro inside
  refine ⟨fun a m found => ?_, .refl _, .refl _, fun a d' => cacheAt_cache_of_some free, le_rfl,
    fun _ _ _ _ => rfl⟩
  obtain ⟨-, entered⟩ | old := of_cacheAt_cache found
  · exact there m entered.symm
  · exact inside a m old

variable {convert : JSRef → Action DartVal}

/-- A container that was just made enters the cache. -/
theorem Calm.entered {w₁ : World} {o : ObjRef} {d : DartVal} (calm : Calm c w w₁)
    (inside : Private c w) (free : cacheAt w c o.address = none)
    (there : ∀ m, d = .map m → m < w₁.maps.length) :
    Private c (w₁.cache c o d) ∧ Stays c fills w (w₁.cache c o d) := by
  have free₁ : cacheAt w₁ c o.address = none := by rwa [cacheAt, calm.cache]
  exact Tends.follows.trans calm.tends (tends_cache free₁ there) inside

/-- A map nobody knew may be filled. -/
theorem Stays.filled {w₁ : World} {m : Nat} (stays : Stays c fills w w₁) (inside : Private c w)
    (new : w.maps.length ≤ m) (filled : Stays c (fun m' => fills m' ∨ m' = m) w₁ w') :
    Stays c fills w w' := by
  have more : ∀ m', fills m' → fills m' ∨ m' = m := fun _ => .inl
  refine { Stays.follows.trans (stays.mono more) filled with maps := ?_ }
  intro a m' found other
  have old := inside a m' found
  have another : ¬(fills m' ∨ m' = m) := not_or.mpr ⟨other, by omega⟩
  exact (Stays.follows.trans (stays.mono more) filled).maps a m' found another

variable [PackageFfi]

end

end FlutterQuickjs.Conversion
