import Mathlib.Data.List.Basic
import Mathlib.Data.List.Forall2
import Mathlib.Data.List.Nodup

/-!
# Fallible loops

Inversion rules for computations in `Except ε`, together with the two loops
that fallible code over a list keeps using. `mapState f xs s` maps `xs` while
threading a state through the calls and stops at the first error.
`forDistinct before key duplicate after xs seen` walks `xs` with the set of
keys met so far: each element is checked, its key is inserted, a key that is
already there is reported, and the element is checked again.

Every rule says what a successful run means, so callers never unfold a loop.
-/

namespace Result

universe u v

variable {ε : Type u} {α β σ : Type v}

theorem bind_eq_ok_iff (x : Except ε α) (f : α → Except ε β) (b : β) :
    (x >>= f) = .ok b ↔ ∃ a, x = .ok a ∧ f a = .ok b := by
  cases x with
  | error e => simp [bind, Except.bind]
  | ok a => simp [bind, Except.bind]

theorem bind_eq_error_iff (x : Except ε α) (f : α → Except ε β) (e : ε) :
    x >>= f = .error e ↔ x = .error e ∨ ∃ a, x = .ok a ∧ f a = .error e := by
  cases x with
  | error e' => simp [bind, Except.bind]
  | ok a => simp [bind, Except.bind]

theorem check_bind_eq_ok_iff {β : Type} (x : Except ε Unit) (f : Unit → Except ε β) (b : β) :
    (x >>= f) = .ok b ↔ x = .ok () ∧ f () = .ok b := by
  rw [bind_eq_ok_iff]
  exact ⟨fun ⟨_, hx, hf⟩ => ⟨hx, hf⟩, fun ⟨hx, hf⟩ => ⟨(), hx, hf⟩⟩

@[simp] theorem ok_bind (a : α) (f : α → Except ε β) :
    ((Except.ok a : Except ε α) >>= f) = f a := rfl

@[simp] theorem error_bind (e : ε) (f : α → Except ε β) :
    ((Except.error e : Except ε α) >>= f) = .error e := rfl

@[simp] theorem mapError_eq_ok_iff {δ : Type*} (g : ε → δ) (x : Except ε α) (a : α) :
    x.mapError g = .ok a ↔ x = .ok a := by
  cases x with
  | error e => simp [Except.mapError]
  | ok b => simp [Except.mapError]

theorem map_eq_ok_iff (f : α → β) (x : Except ε α) (b : β) :
    x.map f = .ok b ↔ ∃ a, x = .ok a ∧ f a = b := by
  cases x with
  | error e => simp [Except.map]
  | ok a => simp [Except.map]

theorem mapM_eq_ok_iff (f : α → Except ε β) (xs : List α) (ys : List β) :
    xs.mapM f = .ok ys ↔ List.Forall₂ (fun a b => f a = .ok b) xs ys := by
  induction xs generalizing ys with
  | nil =>
      simp only [List.mapM_nil, pure, Except.pure, Except.ok.injEq,
        List.forall₂_nil_left_iff]
      exact eq_comm
  | cons a xs ih =>
      simp only [List.mapM_cons, bind_eq_ok_iff, pure, Except.pure, Except.ok.injEq,
        List.forall₂_cons_left_iff]
      constructor
      · rintro ⟨b, hb, bs, hbs, rfl⟩
        exact ⟨b, bs, hb, (ih bs).mp hbs, rfl⟩
      · rintro ⟨b, bs, hb, hbs, rfl⟩
        exact ⟨b, hb, bs, (ih bs).mpr hbs, rfl⟩

theorem exists_of_forall₂_of_mem {R : α → β → Prop} {xs : List α} {ys : List β}
    (h : List.Forall₂ R xs ys) {a : α} (ha : a ∈ xs) : ∃ b ∈ ys, R a b := by
  induction h with
  | nil => cases ha
  | cons hab _ ih =>
      rcases List.mem_cons.mp ha with rfl | ha
      · exact ⟨_, List.mem_cons_self, hab⟩
      · obtain ⟨b, hb, hR⟩ := ih ha
        exact ⟨b, List.mem_cons_of_mem _ hb, hR⟩

theorem mapM_ne_ok_of_mem (f : α → Except ε β) (xs : List α) (a : α) (e : ε)
    (ha : a ∈ xs) (he : f a = .error e) (ys : List β) : xs.mapM f ≠ .ok ys := by
  intro h
  obtain ⟨b, -, hb⟩ := exists_of_forall₂_of_mem ((mapM_eq_ok_iff f xs ys).mp h) ha
  rw [he] at hb
  cases hb

theorem exists_error_of_mapM (f : α → Except ε β) (xs : List α) (e : ε)
    (h : xs.mapM f = .error e) : ∃ a ∈ xs, f a = .error e := by
  induction xs with
  | nil => cases h
  | cons a xs ih =>
      rw [List.mapM_cons] at h
      cases hhead : f a with
      | error e' =>
          rw [hhead, error_bind, Except.error.injEq] at h
          exact ⟨a, List.mem_cons_self .., h ▸ hhead⟩
      | ok b =>
          rw [hhead, ok_bind] at h
          cases htail : xs.mapM f with
          | error e' =>
              rw [htail, error_bind, Except.error.injEq] at h
              obtain ⟨x, hx, herror⟩ := ih (h ▸ htail)
              exact ⟨x, List.mem_cons_of_mem _ hx, herror⟩
          | ok bs =>
              rw [htail] at h
              cases h

theorem exists_ok_of_mapM (f : α → Except ε β) (xs : List α)
    (h : ∀ a ∈ xs, ∃ b, f a = .ok b) : ∃ ys, xs.mapM f = .ok ys := by
  cases hmap : xs.mapM f with
  | ok ys => exact ⟨ys, rfl⟩
  | error e =>
      obtain ⟨a, ha, herror⟩ := exists_error_of_mapM f xs e hmap
      obtain ⟨b, hb⟩ := h a ha
      rw [herror] at hb
      cases hb

theorem forM_eq_ok_iff (f : α → Except ε PUnit) (xs : List α) :
    xs.forM f = .ok ⟨⟩ ↔ ∀ a ∈ xs, f a = .ok ⟨⟩ := by
  induction xs with
  | nil => simp [List.forM, pure, Except.pure]
  | cons a xs ih =>
      rw [List.forM, bind_eq_ok_iff, List.forall_mem_cons, ← ih]
      exact ⟨fun ⟨_, ha, hxs⟩ => ⟨ha, hxs⟩, fun ⟨ha, hxs⟩ => ⟨⟨⟩, ha, hxs⟩⟩

/-- The map that threads a state through its calls and stops at an error. -/
def mapState (f : α → σ → Except ε (β × σ)) : List α → σ → Except ε (List β × σ)
  | [], s => .ok ([], s)
  | a :: as, s => do
      let (b, s) ← f a s
      let (bs, s) ← mapState f as s
      .ok (b :: bs, s)

/-- When a call succeeds exactly on the elements with `P`, with a value that
does not depend on the state, the loop succeeds exactly when every element has
`P`, and then it is the plain map. -/
theorem mapState_eq_ok_iff (f : α → σ → Except ε (β × σ)) (P : α → Prop) (g : α → β)
    (d : σ → α → σ) (hf : ∀ a s r, f a s = .ok r ↔ P a ∧ r = (g a, d s a)) (as : List α)
    (s : σ) (r : List β × σ) :
    mapState f as s = .ok r ↔ (∀ a ∈ as, P a) ∧ r = (as.map g, as.foldl d s) := by
  induction as generalizing s r with
  | nil => simp [mapState, eq_comm]
  | cons a as ih =>
      simp only [mapState, bind_eq_ok_iff, hf, ih, Except.ok.injEq, List.mem_cons,
        forall_eq_or_imp, List.map_cons, List.foldl_cons]
      constructor
      · rintro ⟨first, ⟨ha, rfl⟩, rest, ⟨has, rfl⟩, rfl⟩
        exact ⟨⟨ha, has⟩, rfl⟩
      · rintro ⟨⟨ha, has⟩, rfl⟩
        exact ⟨_, ⟨ha, rfl⟩, _, ⟨has, rfl⟩, rfl⟩

/-- A loop whose invariant, stated with the elements still to come, makes every
call succeed with the value `g` gives. -/
theorem mapState_of_invariant (f : α → σ → Except ε (β × σ)) (g : α → β)
    (Inv : List α → σ → Prop)
    (hstep : ∀ a as s, Inv (a :: as) s → ∃ s', f a s = .ok (g a, s') ∧ Inv as s')
    (as : List α) (s : σ) (h : Inv as s) :
    ∃ s', mapState f as s = .ok (as.map g, s') ∧ Inv [] s' := by
  induction as generalizing s with
  | nil => exact ⟨s, rfl, h⟩
  | cons a as ih =>
      obtain ⟨t, hcall, ht⟩ := hstep a as s h
      obtain ⟨s', hloop, hs'⟩ := ih t ht
      refine ⟨s', ?_, hs'⟩
      simp only [mapState, hcall, hloop, ok_bind, List.map_cons]

/-- What every call keeps of the values returned so far and of the state holds
at the end of a successful loop. -/
theorem mapState_invariant (f : α → σ → Except ε (β × σ)) (Inv : List β → σ → Prop)
    (hstep : ∀ done a s b s', Inv done s → f a s = .ok (b, s') → Inv (done ++ [b]) s')
    (as : List α) (done : List β) (s : σ) (bs : List β) (s' : σ) (h : Inv done s)
    (hloop : mapState f as s = .ok (bs, s')) : Inv (done ++ bs) s' := by
  induction as generalizing done s bs with
  | nil =>
      simp only [mapState, Except.ok.injEq, Prod.mk.injEq] at hloop
      rw [← hloop.1, ← hloop.2, List.append_nil]
      exact h
  | cons a as ih =>
      simp only [mapState, bind_eq_ok_iff, Except.ok.injEq] at hloop
      obtain ⟨⟨b, t⟩, hcall, ⟨rest, u⟩, hrest, heq⟩ := hloop
      cases heq
      have hrec := ih (done ++ [b]) t rest (hstep done a s b t h hcall) hrest
      rwa [List.append_assoc, List.singleton_append] at hrec

/-- What a successful loop says about every element and keeps of the state. -/
theorem mapState_forall (f : α → σ → Except ε (β × σ)) {P : σ → Prop} {Q : α → Prop}
    (as : List α)
    (hstep : ∀ a ∈ as, ∀ s b s', f a s = .ok (b, s') → Q a ∧ (P s → P s')) (s : σ)
    (bs : List β) (s' : σ) (hloop : mapState f as s = .ok (bs, s')) :
    (∀ a ∈ as, Q a) ∧ (P s → P s') := by
  induction as generalizing s bs with
  | nil =>
      simp only [mapState, Except.ok.injEq, Prod.mk.injEq] at hloop
      rw [hloop.2]
      exact ⟨fun a ha => absurd ha List.not_mem_nil, id⟩
  | cons a as ih =>
      simp only [mapState, bind_eq_ok_iff, Except.ok.injEq] at hloop
      obtain ⟨⟨b, t⟩, hcall, ⟨rest, u⟩, hrest, heq⟩ := hloop
      cases heq
      obtain ⟨hhead, hkeeps⟩ := hstep a (List.mem_cons_self ..) s b t hcall
      obtain ⟨htail, hkeeps'⟩ :=
        ih (fun x hx => hstep x (List.mem_cons_of_mem a hx)) t rest hrest
      exact ⟨List.forall_mem_cons.mpr ⟨hhead, htail⟩, fun hs => hkeeps' (hkeeps hs)⟩

/-- What every call keeps of the accumulator holds at the end of a successful
fold. -/
theorem foldlM_invariant (f : β → α → Except ε β) (Inv : β → Prop)
    (hstep : ∀ a b b', Inv b → f b a = .ok b' → Inv b') (as : List α) (b b' : β) (h : Inv b)
    (hloop : as.foldlM f b = .ok b') : Inv b' := by
  induction as generalizing b with
  | nil =>
      simp only [List.foldlM_nil, pure, Except.pure, Except.ok.injEq] at hloop
      exact hloop ▸ h
  | cons a as ih =>
      rw [List.foldlM_cons, bind_eq_ok_iff] at hloop
      obtain ⟨c, hcall, hrest⟩ := hloop
      exact ih c (hstep a b c h hcall) hrest

theorem mapState_map {γ : Type v} (f : α → σ → Except ε (β × σ)) (h : γ → α) (as : List γ)
    (s : σ) : mapState f (as.map h) s = mapState (fun a => f (h a)) as s := by
  induction as generalizing s with
  | nil => rfl
  | cons a as ih => simp only [List.map_cons, mapState, ih]

/-- The loop over `xs` with the set `seen` of keys met so far. -/
def forDistinct {κ : Type*} [DecidableEq κ] (before : α → Except ε Unit) (key : α → κ)
    (duplicate : α → ε) (after : α → Except ε Unit) : List α → List κ → Except ε Unit
  | [], _ => .ok ()
  | a :: as, seen =>
      match before a with
      | .error e => .error e
      | .ok () =>
          if key a ∈ seen then .error (duplicate a)
          else
            match after a with
            | .error e => .error e
            | .ok () => forDistinct before key duplicate after as (key a :: seen)

theorem forDistinct_eq_ok_iff_seen {κ : Type*} [DecidableEq κ]
    (before : α → Except ε Unit) (key : α → κ) (duplicate : α → ε)
    (after : α → Except ε Unit) (as : List α) (seen : List κ) :
    forDistinct before key duplicate after as seen = .ok () ↔
      (∀ a ∈ as, before a = .ok () ∧ after a = .ok ()) ∧
        (as.map key).Nodup ∧ ∀ a ∈ as, key a ∉ seen := by
  induction as generalizing seen with
  | nil => simp [forDistinct]
  | cons a as ih =>
      have hnil : ∀ x : Except ε Unit, (∃ e, x = .error e) ∨ x = .ok () := by
        intro x
        cases x with
        | error e => exact .inl ⟨e, rfl⟩
        | ok u => exact .inr rfl
      rcases hnil (before a) with ⟨e, hb⟩ | hb
      · simp [forDistinct, hb]
      · by_cases hseen : key a ∈ seen
        · simp [forDistinct, hb, hseen]
        · rcases hnil (after a) with ⟨e, haft⟩ | haft
          · simp [forDistinct, hb, hseen, haft]
          · simp only [forDistinct, hb, haft, if_neg hseen, ih, List.mem_cons,
              List.map_cons, List.nodup_cons, List.mem_map, forall_eq_or_imp,
              not_or]
            constructor
            · rintro ⟨hall, hnodup, hfresh⟩
              refine ⟨⟨⟨trivial, trivial⟩, hall⟩, ⟨?_, hnodup⟩, hseen,
                fun a' ha' => (hfresh a' ha').2⟩
              rintro ⟨a', ha', hkey⟩
              exact (hfresh a' ha').1 hkey
            · rintro ⟨⟨-, hall⟩, ⟨hnew, hnodup⟩, -, hfresh⟩
              refine ⟨hall, hnodup, fun a' ha' => ⟨?_, hfresh a' ha'⟩⟩
              intro hkey
              exact hnew ⟨a', ha', hkey⟩

/-- Started on the empty set, the loop accepts exactly the lists whose elements
pass both checks and whose keys are pairwise different. -/
theorem forDistinct_eq_ok_iff {κ : Type*} [DecidableEq κ]
    (before : α → Except ε Unit) (key : α → κ) (duplicate : α → ε)
    (after : α → Except ε Unit) (as : List α) :
    forDistinct before key duplicate after as [] = .ok () ↔
      (∀ a ∈ as, before a = .ok () ∧ after a = .ok ()) ∧ (as.map key).Nodup := by
  rw [forDistinct_eq_ok_iff_seen]
  simp

end Result
