import FlutterQuickjs.Binding.Entering
import FlutterQuickjs.Binding.Frame
import FlutterQuickjs.Binding.Lists
import FlutterQuickjs.Binding.Plain
import FlutterQuickjs.Binding.Total

namespace FlutterQuickjs.Conversion

open Engine Binding ValueConverter
open Effect

/-- A stack of `n` suffices to send the value, whatever happens to the objects made for it. -/
def Shallow (w : World) : Nat → DartVal → Prop
  | 0, _ => False
  | n + 1, d =>
    match d with
    | .list l => (w.lists.getD l []).length < n ∧ ∀ d ∈ w.lists.getD l [], Shallow w n d
    | .map m => ∀ e ∈ (w.maps.getD m .empty).entries, Shallow w n e.2
    | _ => True

/-- Lists and maps hold the same. -/
structure SameContents (w w' : World) : Prop where
  lists : w'.lists = w.lists
  maps : ∀ m, w'.maps.getD m .empty = w.maps.getD m .empty

namespace SameContents

variable {w w' w'' : World}

theorem refl (w : World) : SameContents w w := ⟨rfl, fun _ => rfl⟩

theorem trans (first : SameContents w w') (second : SameContents w' w'') : SameContents w w'' :=
  ⟨second.lists.trans first.lists, fun m => (second.maps m).trans (first.maps m)⟩

theorem of_frame {op : Op} (sending : Sending op) (steady : Steady op w w')
    (frame : Frame op w w') : SameContents w w' := by
  have fills : ¬Fills op := by
    intro fills
    cases op with
    | mapPut m k v => exact sending.elim
    | cachePut c o v => exact sending.elim
    | _ => exact fills
  have lists : ¬Lists op := by
    intro lists
    cases op with
    | newList => exact sending.elim
    | listAdd l v => exact sending.elim
    | listDone l => exact sending.elim
    | _ => exact lists
  refine ⟨steady.lists lists, fun m => ?_⟩
  rcases frame.maps fills with same | more
  · rw [same]
  · rw [more, getD_append_singleton]

end SameContents

section

variable {rely : World → World → Prop} {total : Prop} {w : World} {α β : Type}

/-- The program cannot fail by itself, and leaves lists and maps as they are. -/
def Unfailing (rely : World → World → Prop) (p : Action α) : Prop :=
  ∀ w, wp env (.plain rely True) p (fun out w' => (∃ a, out = .ok a) ∧ SameContents w w') w

namespace Unfailing

theorem pure (a : α) : Unfailing rely (Pure.pure a) := fun w => ⟨⟨a, rfl⟩, .refl w⟩

theorem bind {p : Action α} {f : α → Action β} (first : Unfailing rely p)
    (rest : ∀ a, Unfailing rely (f a)) : Unfailing rely (p >>= f) := by
  intro w
  rw [wp_bind]
  refine wp_mono (first w) fun out w' after => ?_
  obtain ⟨⟨a, rfl⟩, same⟩ := after
  exact wp_mono (rest a w') fun out w'' later => ⟨later.1, same.trans later.2⟩

theorem ite {c : Prop} [Decidable c] {p q : Action α} (yes : Unfailing rely p) (no : Unfailing rely q) :
    Unfailing rely (if c then p else q) := by
  by_cases hc : c
  · simpa [hc] using yes
  · simpa [hc] using no

theorem call (refl : ∀ w, rely w w) (keeps : ∀ w w', rely w w' → SameContents w w') {op : Op}
    (sending : Sending op) : Unfailing rely (perform op) := by
  intro w
  refine ⟨trivial, fun _ => answers_total refl op w, fun r w' answered => ⟨⟨r, rfl⟩, ?_⟩⟩
  obtain ⟨-, ⟨-, own⟩ | ⟨-, w₁, between, returned⟩⟩ := answered
  · exact .of_frame sending (steady_direct own) (frame_direct own)
  · exact (keeps w w₁ between).trans (.of_frame sending (steady_back returned) (frame_back returned))

/-- What is left to do after an unfailing beginning. -/
theorem step {p : Action α} {f : α → Action β} {Q : Except DartError β → World → Prop}
    (first : Unfailing rely p) (rest : ∀ a w', SameContents w w' → wp env (.plain rely True) (f a) Q w') :
    wp env (.plain rely True) (p >>= f) Q w := by
  rw [wp_bind]
  refine wp_mono (first w) fun out w' after => ?_
  obtain ⟨⟨a, rfl⟩, same⟩ := after
  exact rest a w' same

end Unfailing

/-- Each conversion returns exactly if the value meets `fits`. -/
def ReturnsIff (rely : World → World → Prop) (w : World) (fits : DartVal → Prop)
    (convert : DartVal → Action Ptr) : Prop :=
  ∀ d w', SameContents w w' → wp env (.plain rely True) (convert d)
    (fun out w'' => ((∃ p, out = .ok p) ↔ fits d) ∧ SameContents w w'') w'

variable {w₀ : World} {fits : DartVal → Prop} {convert : DartVal → Action Ptr} {ctx : Ctx} {p : Ptr}

theorem elementLoop_returns_iff (refl : ∀ w, rely w w)
    (keeps : ∀ w w', rely w w' → SameContents w w') (each : ReturnsIff rely w₀ fits convert)
    {l : Nat} (rounds i : Nat) (bound : i ≤ (w₀.lists.getD l []).length) (same : SameContents w₀ w) :
    wp env (.plain rely True) (elementLoop convert ctx p l rounds i) (fun out w' =>
      ((∃ u, out = .ok u) ↔ (w₀.lists.getD l []).length < i + rounds ∧
        ∀ d ∈ (w₀.lists.getD l []).drop i, fits d) ∧ SameContents w₀ w') w := by
  induction rounds generalizing i w with
  | zero =>
    refine ⟨iff_of_false (by simp) fun all => ?_, same⟩
    have := all.1
    omega
  | succ rounds ih =>
    have held : w.lists.getD l [] = w₀.lists.getD l [] := by rw [same.lists]
    rw [elementLoop, wp_bind, plain_answer (.listLength l) rfl, andThen_ok, held, wp_ite]
    refine ⟨fun inside => ?_, fun outside => ?_⟩
    · rw [wp_bind, plain_answer (.listGet l i) rfl, andThen_ok, held,
        List.getElem?_eq_getElem inside, wp_bind]
      refine wp_mono (each _ w same) fun out w₁ after => ?_
      obtain ⟨returns, same₁⟩ := after
      have parts : (∀ d ∈ (w₀.lists.getD l []).drop i, fits d) ↔
          fits (w₀.lists.getD l [])[i] ∧ ∀ d ∈ (w₀.lists.getD l []).drop (i+1), fits d := by
        rw [List.drop_eq_getElem_cons inside, List.forall_mem_cons]
      rw [parts]
      cases out with
      | error e =>
        have unfit : ¬fits (w₀.lists.getD l [])[i] := fun fit => by
          obtain ⟨p, returned⟩ := returns.mpr fit
          cases returned
        exact ⟨iff_of_false (by simp) fun all => unfit all.2.1, same₁⟩
      | ok element =>
        have fit := returns.mp ⟨element, rfl⟩
        have defines : Unfailing rely
            (jsDefinePropertyValueUint32 ctx p i element JSProp.C_W_E) :=
          .bind (.call refl keeps trivial) fun _ => .bind (.call refl keeps trivial) fun _ =>
            .call refl keeps trivial
        refine defines.step fun _ w₂ same₂ => ?_
        refine wp_mono (ih (i+1) inside (same₁.trans same₂)) fun out w₃ last => ?_
        rw [show i + 1 + rounds = i + (rounds + 1) by omega] at last
        simp only [fit, true_and]
        exact last
    · have none : (w₀.lists.getD l []).drop i = [] := List.drop_eq_nil_of_le (by omega)
      refine ⟨⟨fun _ => ⟨by omega, ?_⟩, fun _ => ⟨(), rfl⟩⟩, same⟩
      rw [none]
      simp

theorem unfailing_jsSetPropertyStr (refl : ∀ w, rely w w)
    (keeps : ∀ w w', rely w w' → SameContents w w') {name : CString} {x : Ptr} :
    Unfailing rely (jsSetPropertyStr ctx p name x) :=
  .bind (.call refl keeps trivial) fun _ => .bind (.call refl keeps trivial) fun _ =>
    .bind (.ite (.pure _) (.call refl keeps trivial)) fun _ => .call refl keeps trivial

theorem unfailing_proxyNew (refl : ∀ w, rely w w)
    (keeps : ∀ w w', rely w w' → SameContents w w') {f : DartFunction} :
    Unfailing rely (HostFunctionProxy.new ctx f) := by
  have rest : Unfailing rely (do
      let funcList ← perform (.hostFunctions ctx)
      let funcList := funcList.getD [] ++ [HostFunction.new (.function f)]
      perform (.setHostFunctions ctx (some funcList))
      return funcList.length - 1 : Action Nat) :=
    .bind (.call refl keeps trivial) fun _ => .bind (.call refl keeps trivial) fun _ => .pure _
  refine .bind (.call refl keeps trivial) fun initialized => .ite ?_ rest
  exact .bind (.call refl keeps trivial) fun _ => .bind (.call refl keeps trivial) fun _ => rest

variable [PackageFfi]

theorem entryLoop_returns_iff (refl : ∀ w, rely w w)
    (keeps : ∀ w w', rely w w' → SameContents w w') (each : ReturnsIff rely w₀ fits convert)
    {m : Nat} (rounds : Nat) (few : rounds ≤ (w₀.maps.getD m .empty).entries.length)
    (same : SameContents w₀ w) :
    wp env (.plain rely True) (entryLoop convert ctx p m (w₀.maps.getD m .empty).keys rounds)
      (fun out w' => ((∃ u, out = .ok u) ↔ ∀ e ∈ (w₀.maps.getD m .empty).entries.drop
        ((w₀.maps.getD m .empty).entries.length - rounds), fits e.2) ∧ SameContents w₀ w') w := by
  have keys : (w₀.maps.getD m .empty).entries.map Prod.fst = (w₀.maps.getD m .empty).keys := rfl
  have length : (w₀.maps.getD m .empty).keys.length = (w₀.maps.getD m .empty).entries.length := by
    rw [OrderedMap.keys, List.length_map]
  induction rounds generalizing w with
  | zero =>
    rw [entryLoop, wp_bind, plain_answer (.mapEntries m) rfl, andThen_ok, same.maps m, keys]
    simp [same]
  | succ rounds ih =>
    have inside : (w₀.maps.getD m .empty).entries.length - (rounds + 1) <
        (w₀.maps.getD m .empty).entries.length := by omega
    have next : (w₀.maps.getD m .empty).entries.length - (rounds + 1) + 1 =
        (w₀.maps.getD m .empty).entries.length - rounds := by omega
    rw [entryLoop, wp_bind, plain_answer (.mapEntries m) rfl, andThen_ok, same.maps m, keys]
    simp only [ne_eq, not_true_eq_false, if_false, length, List.getElem?_eq_getElem inside]
    rw [List.drop_eq_getElem_cons inside, List.forall_mem_cons, next, wp_bind]
    refine wp_mono (each _ w same) fun out w₁ after => ?_
    obtain ⟨returns, same₁⟩ := after
    cases out with
    | error e =>
      refine ⟨iff_of_false (by simp) fun all => ?_, same₁⟩
      obtain ⟨p, returned⟩ := returns.mpr all.1
      cases returned
    | ok prop =>
      have fit := returns.mp ⟨prop, rfl⟩
      refine (unfailing_jsSetPropertyStr refl keeps).step fun _ w₂ same₂ => ?_
      refine wp_mono (ih (by omega) (same₁.trans same₂)) fun out w₃ last => ?_
      simp only [fit, true_and]
      exact last

/-- The stack alone decides whether sending a value returns. -/
theorem toQuickJSValue_returns_iff (refl : ∀ w, rely w w)
    (keeps : ∀ w w', rely w w' → SameContents w w') (n : Nat) :
    ReturnsIff rely w₀ (Shallow w₀ n) (toQuickJSValue n ctx) := by
  induction n with
  | zero => exact fun d w same => ⟨iff_of_false (by simp) id, same⟩
  | succ n ih =>
    intro d w same
    have alone : ∀ {p : Action Ptr}, Unfailing rely p → (Shallow w₀ (n+1) d ↔ True) →
        wp env (.plain rely True) p
          (fun out w' => ((∃ p, out = .ok p) ↔ Shallow w₀ (n+1) d) ∧ SameContents w₀ w') w := by
      intro p unfailing fits
      refine wp_mono (unfailing w) fun out w' after => ?_
      exact ⟨iff_of_true after.1 (fits.mpr trivial), same.trans after.2⟩
    cases d with
    | list l =>
      rw [toQuickJSValue]
      refine Unfailing.step (.bind (.call refl keeps trivial) fun _ => .call refl keeps trivial)
        fun p w₁ same₁ => ?_
      rw [wp_bind]
      refine wp_mono (elementLoop_returns_iff refl keeps ih n 0 (Nat.zero_le _) (same.trans same₁))
        fun out w₂ after => ?_
      rw [Nat.zero_add, List.drop_zero] at after
      cases out with
      | error e => simpa [Shallow] using after
      | ok u => simpa [Shallow] using after
    | map m =>
      rw [toQuickJSValue]
      refine Unfailing.step (.bind (.call refl keeps trivial) fun _ => .call refl keeps trivial)
        fun p w₁ same₁ => ?_
      rw [wp_bind, plain_answer (.mapEntries m) rfl, andThen_ok, (same.trans same₁).maps m, wp_bind]
      have all : ((w₀.maps.getD m .empty).entries.map Prod.fst).length =
          (w₀.maps.getD m .empty).entries.length := List.length_map _
      rw [all]
      refine wp_mono (entryLoop_returns_iff refl keeps ih _ le_rfl (same.trans same₁))
        fun out w₂ after => ?_
      rw [Nat.sub_self, List.drop_zero] at after
      cases out with
      | error e => simpa [Shallow] using after
      | ok u => simpa [Shallow] using after
    | string s =>
      exact alone (.bind (.call refl keeps trivial) fun _ => .call refl keeps trivial) Iff.rfl
    | function f =>
      refine alone (.bind (unfailing_proxyNew refl keeps) fun id => .bind (.bind (.call refl keeps
        trivial) fun _ => .call refl keeps trivial) fun p => .bind (.call refl keeps trivial)
        fun _ => .pure _) Iff.rfl
    | null => exact alone (.call refl keeps trivial) Iff.rfl
    | bool b => exact alone (.call refl keeps trivial) Iff.rfl
    | int i => exact alone (.call refl keeps trivial) Iff.rfl
    | double x => exact alone (.call refl keeps trivial) Iff.rfl
    | hostFunction f =>
      exact alone (.bind (.call refl keeps trivial) fun _ => .call refl keeps trivial) Iff.rfl
    | exception message =>
      exact alone (.bind (.call refl keeps trivial) fun _ => .call refl keeps trivial) Iff.rfl
    | other x =>
      exact alone (.bind (.call refl keeps trivial) fun _ => .call refl keeps trivial) Iff.rfl

end

end FlutterQuickjs.Conversion
