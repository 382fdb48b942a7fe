import Mathlib.Data.List.Forall2
import Mathlib.Data.List.Perm.Basic

/-!
# Steps that succeed

* `mapM_eq_ok_of` : steps over a list succeed when each of them does.
* `mapM_eq_ok_map` : what they give, when it is known what each of them gives.
* `mapM_eq_ok_iff` : the results are those of the steps, one by one.
* `map_eq_map_of_mapM`, `eq_map_of_mapM` : what they give, when each result is determined by its step.
* `exists_of_mapM`, `mem_of_mapM` : each result is that of a step, and each step has one.
* `exists_mapM_iff` : steps over a list succeed just when each of them does.
* `exists_mapM_of_perm` : so they do in any order, and give the same.
* `mapM_eq_error_of`, `mapM_eq_error_iff` : the first step that fails ends them.
* `map_eq_ok_iff`, `map_eq_error_iff`, `mapError_eq_ok_iff`, `toOption_eq_some_iff`, `bind_eq_ok_iff` : a single step, and
  one after another.
* `exists_mem_iff_of_forall₂` : lists whose items correspond have the same properties.
-/

namespace CouplingTree

variable {β γ ε : Type} {f : β → Except ε γ}

theorem mapM_eq_ok_of {P : γ → Prop} :
    ∀ {l : List β}, (∀ x ∈ l, ∃ y, f x = .ok y ∧ P y) → ∃ ys, l.mapM f = .ok ys ∧ ∀ y ∈ ys, P y
  | [], _ => ⟨[], rfl, fun _ hy => absurd hy List.not_mem_nil⟩
  | x :: l, h => by
    obtain ⟨y, hy, hP⟩ := h x (List.mem_cons_self ..)
    obtain ⟨ys, hys, hPs⟩ := mapM_eq_ok_of fun x hx => h x (List.mem_cons_of_mem _ hx)
    refine ⟨y :: ys, ?_, List.forall_mem_cons.2 ⟨hP, hPs⟩⟩
    rw [List.mapM_cons, hy, hys]
    rfl

theorem mapM_eq_ok_map {g : β → γ} : ∀ {l : List β}, (∀ x ∈ l, f x = .ok (g x)) → l.mapM f = .ok (l.map g)
  | [], _ => rfl
  | x :: l, h => by
    obtain ⟨hx, hl⟩ := List.forall_mem_cons.1 h
    rw [List.mapM_cons, hx, mapM_eq_ok_map hl]
    rfl

theorem mapM_eq_ok_iff {l : List β} {ys : List γ} : l.mapM f = .ok ys ↔ List.Forall₂ (fun x y => f x = .ok y) l ys := by
  constructor
  · intro h
    induction l generalizing ys with
    | nil =>
      cases h
      exact .nil
    | cons x l ih =>
      rw [List.mapM_cons] at h
      cases hx : f x with
      | error e =>
        rw [hx] at h
        cases h
      | ok y =>
        cases hl : l.mapM f with
        | error e =>
          rw [hx, hl] at h
          cases h
        | ok ys =>
          rw [hx, hl] at h
          cases h
          exact .cons hx (ih hl)
  · intro h
    induction h with
    | nil => rfl
    | cons hx _ ih =>
      rw [List.mapM_cons, hx, ih]
      rfl

theorem map_eq_map_of_mapM {δ : Type} {p : γ → δ} {g : β → δ} {l : List β} {ys : List γ} (h : l.mapM f = .ok ys)
    (hg : ∀ x y, f x = .ok y → p y = g x) : ys.map p = l.map g := by
  have hpairs := mapM_eq_ok_iff.1 h
  clear h
  induction hpairs with
  | nil => rfl
  | cons hx _ ih => rw [List.map_cons, List.map_cons, hg _ _ hx, ih]

theorem eq_map_of_mapM {g : β → γ} {l : List β} {ys : List γ} (h : l.mapM f = .ok ys)
    (hg : ∀ x y, f x = .ok y → y = g x) : ys = l.map g :=
  (List.map_id ys).symm.trans (map_eq_map_of_mapM h hg)

theorem exists_of_mapM {l : List β} {ys : List γ} (h : l.mapM f = .ok ys) : ∀ y ∈ ys, ∃ x ∈ l, f x = .ok y := by
  have hpairs := mapM_eq_ok_iff.1 h
  clear h
  induction hpairs with
  | nil => exact fun _ hy => absurd hy List.not_mem_nil
  | cons hx _ ih =>
    refine List.forall_mem_cons.2 ⟨⟨_, List.mem_cons_self .., hx⟩, fun y hy => ?_⟩
    obtain ⟨x, hmem, hxy⟩ := ih y hy
    exact ⟨x, List.mem_cons_of_mem _ hmem, hxy⟩

theorem mem_of_mapM {l : List β} {ys : List γ} (h : l.mapM f = .ok ys) : ∀ x ∈ l, ∃ y ∈ ys, f x = .ok y := by
  have hpairs := mapM_eq_ok_iff.1 h
  clear h
  induction hpairs with
  | nil => exact fun _ hx => absurd hx List.not_mem_nil
  | cons hx _ ih =>
    refine List.forall_mem_cons.2 ⟨⟨_, List.mem_cons_self .., hx⟩, fun x hx => ?_⟩
    obtain ⟨y, hmem, hxy⟩ := ih x hx
    exact ⟨y, List.mem_cons_of_mem _ hmem, hxy⟩

theorem exists_mapM_iff {l : List β} : (∃ ys, l.mapM f = .ok ys) ↔ ∀ x ∈ l, ∃ y, f x = .ok y := by
  constructor
  · rintro ⟨ys, hys⟩ x hx
    obtain ⟨y, -, hy⟩ := mem_of_mapM hys x hx
    exact ⟨y, hy⟩
  · intro h
    obtain ⟨ys, hys, -⟩ := mapM_eq_ok_of (P := fun _ => True) fun x hx => (h x hx).imp fun _ hy => ⟨hy, trivial⟩
    exact ⟨ys, hys⟩

theorem exists_mapM_of_perm {l l' : List β} {ys : List γ} (h : l.Perm l') (hl : l.mapM f = .ok ys) :
    ∃ ys', l'.mapM f = .ok ys' ∧ ys.Perm ys' := by
  obtain ⟨ys', hys', hperm⟩ := List.perm_comp_forall₂ h.symm (mapM_eq_ok_iff.1 hl)
  exact ⟨ys', mapM_eq_ok_iff.2 hys', hperm.symm⟩

theorem mapM_eq_error_of {x : β} {e : ε} (after : List β) (hx : f x = .error e) :
    ∀ {before : List β}, (∀ y ∈ before, ∃ z, f y = .ok z) → (before ++ x :: after).mapM f = .error e
  | [], _ => by
    rw [List.nil_append, List.mapM_cons, hx]
    rfl
  | y :: before, h => by
    obtain ⟨⟨z, hz⟩, hbefore⟩ := List.forall_mem_cons.1 h
    rw [List.cons_append, List.mapM_cons, hz, mapM_eq_error_of after hx hbefore]
    rfl

theorem mapM_eq_error_iff {e : ε} {l : List β} : l.mapM f = .error e ↔
    ∃ before x after, l = before ++ x :: after ∧ (∀ y ∈ before, ∃ z, f y = .ok z) ∧ f x = .error e := by
  constructor
  · intro h
    induction l with
    | nil => cases h
    | cons x l ih =>
      rw [List.mapM_cons] at h
      cases hx : f x with
      | error e' =>
        rw [hx] at h
        cases h
        exact ⟨[], x, l, rfl, fun y hy => absurd hy List.not_mem_nil, hx⟩
      | ok z =>
        cases hl : l.mapM f with
        | ok zs =>
          rw [hx, hl] at h
          cases h
        | error e' =>
          rw [hx, hl] at h
          cases h
          obtain ⟨before, y, after, rfl, hbefore, hy⟩ := ih hl
          exact ⟨x :: before, y, after, rfl, List.forall_mem_cons.2 ⟨⟨z, hx⟩, hbefore⟩, hy⟩
  · rintro ⟨before, x, after, rfl, hbefore, hx⟩
    exact mapM_eq_error_of after hx hbefore

theorem map_eq_ok_iff {x : Except ε β} {g : β → γ} {z : γ} : x.map g = .ok z ↔ ∃ y, x = .ok y ∧ g y = z := by
  cases x <;> simp [Except.map]

theorem map_eq_error_iff {x : Except ε β} {g : β → γ} {e : ε} : x.map g = .error e ↔ x = .error e := by
  cases x <;> simp [Except.map]

theorem mapError_eq_ok_iff {ε' : Type} {x : Except ε β} {g : ε → ε'} {y : β} : x.mapError g = .ok y ↔ x = .ok y := by
  cases x <;> simp [Except.mapError]

theorem toOption_eq_some_iff {x : Except ε β} {y : β} : x.toOption = some y ↔ x = .ok y := by
  cases x <;> simp [Except.toOption]

theorem bind_eq_ok_iff {x : Except ε β} {z : γ} : x >>= f = .ok z ↔ ∃ y, x = .ok y ∧ f y = .ok z := by
  cases x <;> simp [bind, Except.bind]

theorem exists_mem_iff_of_forall₂ {R : β → γ → Prop} {P : β → Prop} {Q : γ → Prop} (hPQ : ∀ x y, R x y → (P x ↔ Q y))
    {l : List β} {l' : List γ} (h : List.Forall₂ R l l') : (∃ x ∈ l, P x) ↔ ∃ y ∈ l', Q y := by
  induction h with
  | nil => simp
  | cons hxy _ ih => simp only [List.mem_cons, exists_eq_or_imp, hPQ _ _ hxy, ih]

end CouplingTree
