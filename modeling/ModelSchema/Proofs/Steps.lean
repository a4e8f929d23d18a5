import Mathlib

/-!
# Computations that can fail

A computation over a list stops at the first failure (`exists_reached`), so one that succeeds is a
list of successful steps: what every step keeps holds at the end (`foldlM_keeps`), and what every
step gives is found in the results (`forall₂_of_mapM`).
-/

namespace ModelSchema

/-! ## Steps -/

/-- Inversion of `>>=` on `Except`: it is how every monadic step below is taken apart, so that no
proof has to unfold `Except.bind`. -/
theorem bind_eq_ok_iff {ε α β : Type} {first : Except ε α} {rest : α → Except ε β} {result : β} :
    first >>= rest = .ok result ↔ ∃ value, first = .ok value ∧ rest value = .ok result := by
  cases first with
  | error _ =>
      constructor
      · intro h
        cases h
      · rintro ⟨_, h, -⟩
        cases h
  | ok value =>
      constructor
      · intro h
        exact ⟨value, rfl, h⟩
      · rintro ⟨_, h, hrest⟩
        cases h
        exact hrest

/-- A computation whose result passes a test has succeeded. Witnesses are evaluated through this:
`decide` closes the test, and what is left speaks of the value. -/
theorem exists_ok_of_any {ε α : Type} {computed : Except ε α} {P : α → Bool}
    (h : computed.toOption.any P = true) : ∃ value, computed = .ok value ∧ P value = true := by
  cases computed with
  | error _ => cases h
  | ok value => exact ⟨value, rfl, h⟩

/-- The run lemma of `foldlM`: an invariant of every successful step is an invariant of a successful
run. The step may use that its entry is one of `entries`. -/
theorem foldlM_keeps {ε σ α : Type} {step : σ → α → Except ε σ} {P : σ → Prop}
    {entries : List α} (hstep : ∀ state, ∀ entry ∈ entries, ∀ next,
      P state → step state entry = .ok next → P next)
    {state final : σ} (hrun : entries.foldlM step state = .ok final) (h : P state) :
    P final := by
  -- On the entries, for every state: the first step changes the state that the rest begins with.
  induction entries generalizing state with
  | nil =>
      cases hrun
      exact h
  | cons entry rest ih =>
      rw [List.foldlM_cons] at hrun
      obtain ⟨next, hnext, hrest⟩ := bind_eq_ok_iff.mp hrun
      have hkept := hstep state entry List.mem_cons_self next h hnext
      exact ih (fun s e he => hstep s e (List.mem_cons_of_mem _ he)) hrest hkept

/-- A run stops at the first step that fails. -/
theorem exists_reached {ε σ α : Type} (step : σ → α → Except ε σ) (entries : List α) (state : σ) :
    ∃ handled reached, handled <+: entries ∧ handled.foldlM step state = .ok reached ∧
      (handled = entries ∨ ∃ entry ∈ entries, ∃ error,
        step reached entry = .error error ∧ entries.foldlM step state = .error error) := by
  -- The prefix grows with every step that succeeds, and the first that fails ends the induction.
  induction entries generalizing state with
  | nil => exact ⟨[], state, List.prefix_refl _, rfl, .inl rfl⟩
  | cons entry rest ih =>
      rw [List.foldlM_cons]
      cases hstep : step state entry with
      | error error =>
          refine ⟨[], state, List.nil_prefix, rfl, .inr ?_⟩
          exact ⟨entry, List.mem_cons_self, error, hstep, rfl⟩
      | ok next =>
          obtain ⟨handled, reached, hprefix, hrun, hend⟩ := ih next
          refine ⟨entry :: handled, reached, List.cons_prefix_cons.mpr ⟨rfl, hprefix⟩, ?_, ?_⟩
          · rw [List.foldlM_cons, hstep]
            exact hrun
          · rcases hend with rfl | ⟨other, hother, error, herror, hrest⟩
            · exact .inl rfl
            · exact .inr ⟨other, List.mem_cons_of_mem _ hother, error, herror, hrest⟩

/-- A loop in a loop is one loop over all entries. The passes of `Assembly.run` go document by
document; with this they become runs over all declarations. -/
theorem foldlM_flatMap {ε σ α β : Type} (step : σ → β → Except ε σ) (f : α → List β)
    (entries : List α) (state : σ) :
    (entries.flatMap f).foldlM step state =
      entries.foldlM (fun state entry => (f entry).foldlM step state) state := by
  induction entries generalizing state with
  | nil => rfl
  | cons entry rest ih =>
      rw [List.flatMap_cons, List.foldlM_append, List.foldlM_cons]
      exact bind_congr fun next => ih next

/-- A run whose steps either act on what an entry stands for or fail is a plain run over what all
entries stand for. -/
theorem foldlM_eq_ok_iff {ε σ α β : Type} {step : σ → α → Except ε σ} {f : α → Option β}
    {g : σ → β → σ} {P : σ → Prop}
    (hsome : ∀ state entry value, P state → f entry = some value →
      step state entry = .ok (g state value))
    (hnone : ∀ state entry next, P state → f entry = none → step state entry ≠ .ok next)
    (hkeeps : ∀ state entry value, P state → f entry = some value → P (g state value))
    {entries : List α} {state final : σ} (h : P state) :
    entries.foldlM step state = .ok final ↔
      (∀ entry ∈ entries, (f entry).isSome) ∧
        final = (entries.filterMap f).foldl g state := by
  induction entries generalizing state with
  | nil =>
      constructor
      · intro hrun
        cases hrun
        exact ⟨fun _ hentry => absurd hentry List.not_mem_nil, rfl⟩
      · rintro ⟨-, rfl⟩
        rfl
  | cons entry rest ih =>
      rw [List.foldlM_cons, bind_eq_ok_iff]
      cases hentry : f entry with
      -- An entry that stands for nothing fails its step, and with it both sides.
      | none =>
          constructor
          · rintro ⟨next, hnext, -⟩
            exact absurd hnext (hnone state entry next h hentry)
          · rintro ⟨hall, -⟩
            have hknown := hall entry List.mem_cons_self
            rw [hentry] at hknown
            cases hknown
      | some value =>
          have hrest := ih (hkeeps state entry value h hentry)
          rw [hsome state entry value h hentry]
          simp only [Except.ok.injEq, exists_eq_left', hrest, List.forall_mem_cons, hentry,
            Option.isSome_some, true_and, List.filterMap_cons_some hentry, List.foldl_cons]

/-! ## Lists side by side -/

/-- What `mapM` succeeds on, side by side with what it gives. `mapM_of_forall₂` is the converse. -/
theorem forall₂_of_mapM {ε α β : Type} {f : α → Except ε β} {as : List α} {bs : List β}
    (h : as.mapM f = .ok bs) : List.Forall₂ (fun a b => f a = .ok b) as bs := by
  induction as generalizing bs with
  | nil =>
      cases h
      exact .nil
  | cons a rest ih =>
      rw [List.mapM_cons] at h
      obtain ⟨b, hb, h⟩ := bind_eq_ok_iff.mp h
      obtain ⟨later, hlater, h⟩ := bind_eq_ok_iff.mp h
      cases h
      exact .cons hb (ih hlater)

theorem mapM_of_forall₂ {ε α β : Type} {f : α → Except ε β} {as : List α} {bs : List β}
    (h : List.Forall₂ (fun a b => f a = .ok b) as bs) : as.mapM f = .ok bs := by
  induction h with
  | nil => rfl
  | cons hab _ ih =>
      rw [List.mapM_cons, hab, ih]
      rfl

/-- What was written part by part is read back if each part is. -/
theorem mapM_map_pure {m : Type → Type} [Monad m] [LawfulMonad m] {α β γ : Type} {write : α → β}
    {read : β → m γ} {f : α → γ} {parts : List α}
    (h : ∀ part ∈ parts, read (write part) = pure (f part)) :
    (parts.map write).mapM read = pure (parts.map f) := by
  induction parts with
  | nil => simp
  | cons part rest ih =>
      have hrest := ih fun other hother => h other (List.mem_cons_of_mem _ hother)
      simp [h part List.mem_cons_self, hrest]

/-- The case of `mapM_map_pure` that round trips use: reading undoes writing part by part. -/
theorem mapM_map_self {m : Type → Type} [Monad m] [LawfulMonad m] {α β : Type} {write : α → β}
    {read : β → m α} {parts : List α} (h : ∀ part ∈ parts, read (write part) = pure part) :
    (parts.map write).mapM read = pure parts := by
  simpa using mapM_map_pure h

/-- If no step can fail, neither can `mapM`. -/
theorem exists_mapM {ε α β : Type} {f : α → Except ε β} {as : List α}
    (h : ∀ a ∈ as, ∃ b, f a = .ok b) : ∃ bs, as.mapM f = .ok bs := by
  induction as with
  | nil => exact ⟨[], rfl⟩
  | cons a rest ih =>
      obtain ⟨b, hb⟩ := h a List.mem_cons_self
      obtain ⟨bs, hbs⟩ := ih fun other hother => h other (List.mem_cons_of_mem _ hother)
      refine ⟨b :: bs, ?_⟩
      rw [List.mapM_cons, hb, hbs]
      rfl

/-- Whatever stands on the right of `Forall₂` has a partner on the left. With `declaredClasses` on
the left, that is the declaration a class comes from. -/
theorem exists_of_forall₂ {α β : Type} {R : α → β → Prop} {as : List α} {bs : List β}
    (h : List.Forall₂ R as bs) : ∀ b ∈ bs, ∃ a ∈ as, R a b := by
  induction h with
  | nil =>
      intro b hb
      exact absurd hb List.not_mem_nil
  | cons hab _ ih =>
      intro b hb
      rcases List.mem_cons.mp hb with rfl | hb
      · exact ⟨_, List.mem_cons_self, hab⟩
      · obtain ⟨a, ha, hR⟩ := ih b hb
        exact ⟨a, List.mem_cons_of_mem _ ha, hR⟩

/-- A relation that preserves a field makes the lists of that field equal. -/
theorem map_eq_of_forall₂ {α β γ : Type} {R : α → β → Prop} {f : α → γ} {g : β → γ}
    {as : List α} {bs : List β} (h : List.Forall₂ R as bs) (hR : ∀ a b, R a b → f a = g b) :
    as.map f = bs.map g := by
  rw [← List.forall₂_eq_eq_eq, List.forall₂_map_left_iff, List.forall₂_map_right_iff]
  exact h.imp hR

theorem flatMap_eq_of_forall₂ {α β γ : Type} {R : α → β → Prop} {f : α → List γ}
    {g : β → List γ} {as : List α} {bs : List β} (h : List.Forall₂ R as bs)
    (hR : ∀ a b, R a b → f a = g b) : as.flatMap f = bs.flatMap g := by
  rw [List.flatMap_def, List.flatMap_def, map_eq_of_forall₂ h hR]

/-- Two comparisons in a row, through the list in the middle. -/
theorem forall₂_comp {α β γ : Type} {R : α → β → Prop} {S : β → γ → Prop} {as : List α}
    {bs : List β} {cs : List γ} (h : List.Forall₂ R as bs) (h' : List.Forall₂ S bs cs) :
    List.Forall₂ (Relation.Comp R S) as cs := by
  induction h generalizing cs with
  | nil =>
      cases h'
      exact .nil
  | cons hab _ ih =>
      cases h' with
      | cons hbc hrest => exact .cons ⟨_, hab, hbc⟩ (ih hrest)

end ModelSchema
