import CouplingTree.Proofs.CommandLine.Runs
import CouplingTree.Proofs.Outcomes
import CouplingTree.Proofs.Service.Answers

/-!
# Bounds of what a command line asks for

* `Arguments.Within` : the numbers keep their bounds, and only some options may be without a value.
* `Arguments.read_induction` : reading keeps what each option keeps, one token after the other.
* `Arguments.within_of_parse` : an option is without a value only where two dashes are attached to it.
* `Arguments.printable_of_parse` : numbers of modules are not too long to be printed.
-/

namespace CouplingTree

open Settings (IsShare)
open Numeral (digitLimit length_digits_int?)

/-- An argument attaches two dashes to an option. -/
def IsCleared (argv : List String) (flag : Flag) : Prop :=
  ∃ s ∈ argv, Token.ofArgument s = .ok (.option flag (some "--"))

namespace Arguments

variable {a b : Arguments} {cleared : Flag → Prop} {flag : Flag} {value : String}

structure Within (cleared : Flag → Prop) (a : Arguments) : Prop where
  minCoupling : a.minCoupling.elim (cleared .minCoupling) IsShare
  maxModules : a.maxModules.elim (cleared .maxModules) (1 ≤ ·)
  threshold : a.threshold.elim (cleared .threshold) IsShare
  maxSelected : a.maxSelected.elim (cleared .maxSelected) fun cap => ∀ n ∈ cap, 1 ≤ n

theorem within_initial : initial.Within cleared where
  minCoupling := Settings.isShare_zero
  maxModules := show (1 : Int) ≤ 5 by decide
  threshold := Settings.isShare_zero
  maxSelected := nofun

/-! ## Values -/

theorem share_bounds {x : Float} (h : share flag value = .ok x) : IsShare x := by
  unfold share at h
  split at h
  · cases h
  · split at h
    · next hx =>
      cases h
      exact hx
    · cases h

theorem count_bound {i : Int} (h : count flag value = .ok i) : 1 ≤ i := by
  unfold count at h
  split at h
  · cases h
  · split at h
    · cases h
    · next hi =>
      cases h
      omega

/-! ## One option -/

theorem Within.turnOn (ha : a.Within cleared) (h : a.turnOn flag = .ok b) : b.Within cleared := by
  cases flag
  case text | verbose =>
    cases h
    exact ⟨ha.minCoupling, ha.maxModules, ha.threshold, ha.maxSelected⟩
  all_goals cases h

theorem Within.assign (ha : a.Within cleared) (h : a.assign flag value = .ok b) : b.Within cleared := by
  cases flag
  case minCoupling =>
    obtain ⟨x, hx, rfl⟩ := map_eq_ok_iff.1 h
    exact ⟨share_bounds hx, ha.maxModules, ha.threshold, ha.maxSelected⟩
  case threshold =>
    obtain ⟨x, hx, rfl⟩ := map_eq_ok_iff.1 h
    exact ⟨ha.minCoupling, ha.maxModules, share_bounds hx, ha.maxSelected⟩
  case maxModules =>
    obtain ⟨i, hi, rfl⟩ := map_eq_ok_iff.1 h
    exact ⟨ha.minCoupling, count_bound hi, ha.threshold, ha.maxSelected⟩
  case maxSelected =>
    obtain ⟨i, hi, rfl⟩ := map_eq_ok_iff.1 h
    refine ⟨ha.minCoupling, ha.maxModules, ha.threshold, fun n hn => ?_⟩
    cases hn
    exact count_bound hi
  case out =>
    cases h
    exact ⟨ha.minCoupling, ha.maxModules, ha.threshold, ha.maxSelected⟩
  all_goals
    unfold Arguments.assign at h
    exact ha.turnOn h

theorem Within.clear (ha : a.Within cleared) (hflag : cleared flag) : (a.clear flag).Within cleared := by
  cases flag
  case minCoupling => exact ⟨hflag, ha.maxModules, ha.threshold, ha.maxSelected⟩
  case maxModules => exact ⟨ha.minCoupling, hflag, ha.threshold, ha.maxSelected⟩
  case threshold => exact ⟨ha.minCoupling, ha.maxModules, hflag, ha.maxSelected⟩
  case maxSelected => exact ⟨ha.minCoupling, ha.maxModules, ha.threshold, hflag⟩
  case out => exact ⟨ha.minCoupling, ha.maxModules, ha.threshold, ha.maxSelected⟩
  all_goals exact ha

/-- Attached dashes take a value away, and every other attached value is checked. -/
theorem Within.attach (ha : a.Within cleared) (hflag : value = "--" → cleared flag) (h : a.attach flag value = .ok b) :
    b.Within cleared := by
  unfold Arguments.attach at h
  split at h
  · cases h
  · split at h
    · next hdashes =>
      cases h
      exact ha.clear (hflag hdashes)
    · exact ha.assign h

/-! ## Whole command lines -/

/-- What each option keeps is kept by a whole command line. -/
theorem read_induction {I : Arguments → Prop} {ts : List (String × Token)} {extras : List String}
    (hinput : ∀ a s, I a → I { a with input := s }) (hturnOn : ∀ {a b flag}, I a → a.turnOn flag = .ok b → I b)
    (hassign : ∀ {a b flag value}, I a → a.assign flag value = .ok b → I b)
    (hattach : ∀ e ∈ ts, ∀ flag value, e.2 = .option flag (some value) → ∀ {a b}, I a → a.attach flag value = .ok b → I b)
    (ha : I a) (h : a.read ts = .ok (b, extras)) : I b := by
  fun_induction Arguments.read a ts generalizing b extras
  case case1 =>
    cases h
    exact ha
  case case2 | case6 => cases h
  case case3 flag value rest ih =>
    obtain ⟨hhead, hrest⟩ := List.forall_mem_cons.1 hattach
    obtain ⟨c, hc, h⟩ := bind_eq_ok_iff.1 h
    exact ih c hrest (hhead flag value rfl ha hc) h
  case case4 ih =>
    have hrest := (List.forall_mem_cons.1 (List.forall_mem_cons.1 hattach).2).2
    obtain ⟨c, hc, h⟩ := bind_eq_ok_iff.1 h
    exact ih c hrest (hassign ha hc) h
  case case5 ih | case7 ih =>
    obtain ⟨c, hc, h⟩ := bind_eq_ok_iff.1 h
    exact ih c (List.forall_mem_cons.1 hattach).2 (hturnOn ha hc) h
  case case8 ih | case10 ih | case12 ih | case14 ih =>
    obtain ⟨r, hr, hb⟩ := map_eq_ok_iff.1 h
    cases hb
    exact ih (List.forall_mem_cons.1 hattach).2 ha hr
  case case9 ih => exact ih (List.forall_mem_cons.1 hattach).2 ha h
  case case11 ih =>
    have hrest := (List.forall_mem_cons.1 (List.forall_mem_cons.1 hattach).2).2
    exact ih hrest (hinput _ _ ha) h
  case case13 ih => exact ih (List.forall_mem_cons.1 hattach).2 (hinput _ _ ha) h

/-- An option that stays without a value is one to which two dashes are attached. -/
theorem within_of_read {ts : List (String × Token)} {extras : List String}
    (hcleared : ∀ e ∈ ts, ∀ flag, e.2 = .option flag (some "--") → cleared flag) (ha : a.Within cleared)
    (h : a.read ts = .ok (b, extras)) : b.Within cleared := by
  refine read_induction (fun a s ha => ?_) Within.turnOn Within.assign (fun e he flag value hflag a b ha => ?_) ha h
  · exact ⟨ha.minCoupling, ha.maxModules, ha.threshold, ha.maxSelected⟩
  · exact ha.attach fun hdashes => hcleared e he flag (hdashes ▸ hflag)

/-! ## Numbers of modules -/

/-- The numbers of modules can be printed. -/
structure Printable (a : Arguments) : Prop where
  maxModules : ∀ n ∈ a.maxModules, (Nat.toDigits 10 n.natAbs).length ≤ digitLimit
  maxSelected : ∀ cap ∈ a.maxSelected, ∀ n ∈ cap, (Nat.toDigits 10 n.natAbs).length ≤ digitLimit

theorem digits_count {i : Int} (h : count flag value = .ok i) : (Nat.toDigits 10 i.natAbs).length ≤ digitLimit := by
  unfold count at h
  split at h
  · cases h
  · next hi =>
    split at h
    · cases h
    · cases h
      exact length_digits_int? hi

theorem Printable.turnOn (ha : a.Printable) (h : a.turnOn flag = .ok b) : b.Printable := by
  cases flag
  case text | verbose =>
    cases h
    exact ⟨ha.maxModules, ha.maxSelected⟩
  all_goals cases h

theorem Printable.assign (ha : a.Printable) (h : a.assign flag value = .ok b) : b.Printable := by
  cases flag
  case minCoupling | threshold =>
    obtain ⟨x, -, rfl⟩ := map_eq_ok_iff.1 h
    exact ⟨ha.maxModules, ha.maxSelected⟩
  case maxModules =>
    obtain ⟨i, hi, rfl⟩ := map_eq_ok_iff.1 h
    refine ⟨fun n hn => ?_, ha.maxSelected⟩
    cases hn
    exact digits_count hi
  case maxSelected =>
    obtain ⟨i, hi, rfl⟩ := map_eq_ok_iff.1 h
    refine ⟨ha.maxModules, fun cap hcap n hn => ?_⟩
    cases hcap
    cases hn
    exact digits_count hi
  case out =>
    cases h
    exact ⟨ha.maxModules, ha.maxSelected⟩
  all_goals
    unfold Arguments.assign at h
    exact ha.turnOn h

theorem Printable.clear (ha : a.Printable) (flag : Flag) : (a.clear flag).Printable := by
  cases flag
  case maxModules => exact ⟨nofun, ha.maxSelected⟩
  case maxSelected => exact ⟨ha.maxModules, nofun⟩
  all_goals exact ⟨ha.maxModules, ha.maxSelected⟩

theorem Printable.attach (ha : a.Printable) (h : a.attach flag value = .ok b) : b.Printable := by
  unfold Arguments.attach at h
  split at h
  · cases h
  · split at h
    · cases h
      exact ha.clear flag
    · exact ha.assign h

end Arguments

/-- What is taken for an option with a value attached is one of the arguments. -/
theorem of_mem_tokens {argv : List String} {ts : List (String × Token)} {e : String × Token} {flag : Flag}
    {attached : Option String} (h : tokens argv = .ok ts) (he : e ∈ ts) (hflag : e.2 = .option flag attached) :
    e.1 ∈ argv ∧ Token.ofArgument e.1 = .ok (.option flag attached) := by
  fun_induction tokens argv generalizing ts
  case case1 =>
    cases h
    cases he
  case case2 rest =>
    cases h
    obtain rfl | he := List.mem_cons.1 he
    · cases hflag
    · obtain ⟨s, -, rfl⟩ := List.mem_map.1 he
      cases hflag
  case case3 s rest _ ih =>
    obtain ⟨token, htoken, h⟩ := bind_eq_ok_iff.1 h
    obtain ⟨us, hus, h⟩ := bind_eq_ok_iff.1 h
    cases h
    obtain rfl | he := List.mem_cons.1 he
    · cases hflag
      exact ⟨List.mem_cons_self .., htoken⟩
    · obtain ⟨hmem, hof⟩ := ih hus he
      exact ⟨List.mem_cons_of_mem _ hmem, hof⟩

theorem splitEquals_eq {cs start : List Char} {value : String} (h : Token.splitEquals cs = (start, some value)) :
    cs = start ++ '=' :: value.toList := by
  unfold Token.splitEquals at h
  split at h
  · next hmem =>
    have hdrop : cs.dropWhile (fun c => decide (c ≠ '=')) ≠ [] := fun hnil => by
      have hall := List.dropWhile_eq_nil_iff.1 hnil '=' hmem
      exact absurd hall (by decide)
    have hhead : (cs.dropWhile fun c => decide (c ≠ '=')).head hdrop = '=' := by
      have hnot := List.head_dropWhile_not (fun c => decide (c ≠ '=')) hdrop
      simpa using hnot
    have hfound : '=' :: (cs.dropWhile fun c => decide (c ≠ '=')).drop 1 = cs.dropWhile fun c => decide (c ≠ '=') := by
      rw [List.drop_one]
      conv_rhs => rw [← List.cons_head_tail hdrop, hhead]
    obtain ⟨rfl, hvalue⟩ := Prod.mk.inj h
    rw [← Option.some.inj hvalue, String.toList_ofList, hfound, List.takeWhile_append_dropWhile]
  · cases h

theorem ofUnlisted_ne_option {s : String} {flag : Flag} {attached : Option String} :
    Token.ofUnlisted s ≠ .option flag attached := by
  unfold Token.ofUnlisted
  dsimp only
  split <;> exact Token.noConfusion

/-- A value is attached to an option by an equals sign. -/
theorem attached_of_ofArgument {s value : String} {flag : Flag} (h : Token.ofArgument s = .ok (.option flag (some value))) :
    ∃ start, s.toList = start ++ '=' :: value.toList := by
  have hsplit : ∀ (rest start : List Char) (attached : Option String) (f : Flag), s.toList = '-' :: '-' :: rest →
      Token.splitEquals ('-' :: '-' :: rest) = (start, attached) →
      (.ok (.option f attached) : Except Ambiguous Token) = .ok (.option flag (some value)) →
      ∃ start, s.toList = start ++ '=' :: value.toList := fun rest start attached f hlist hequals h => by
    cases h
    exact ⟨start, hlist.trans (splitEquals_eq hequals)⟩
  revert h
  fun_cases Token.ofArgument s
  case case2 rest hlist _ start attached hequals f _ => exact hsplit rest start attached f hlist hequals
  case case4 rest hlist _ start attached hequals _ n _ => exact hsplit rest start attached n.2 hlist hequals
  case case3 | case8 => exact fun h => absurd (Except.ok.inj h) ofUnlisted_ne_option
  all_goals
    intro h
    cases h

/-- Dashes that take a value away stand after an equals sign, at the end of an argument. -/
theorem IsCleared.exists_attached {argv : List String} {flag : Flag} (h : IsCleared argv flag) :
    ∃ s ∈ argv, "=--".toList <:+ s.toList := by
  obtain ⟨s, hs, hof⟩ := h
  obtain ⟨start, hstart⟩ := attached_of_ofArgument hof
  exact ⟨s, hs, start, hstart.symm⟩

theorem exists_of_elim {β : Type} {o : Option β} {c : Prop} {P : β → Prop} (h : o.elim c P) (hc : ¬c) :
    ∃ x, o = some x ∧ P x := by
  cases o with
  | none => exact absurd h hc
  | some x => exact ⟨x, rfl, h⟩

namespace Arguments

variable {a : Arguments} {argv : List String} {input : String}

/-- A command line that is read keeps the bounds, but that two dashes may take values away. -/
theorem within_of_parse (h : parse argv = .ok (input, a)) : a.Within (IsCleared argv) := by
  obtain ⟨ts, hts, h⟩ := bind_eq_ok_iff.1 h
  obtain ⟨⟨b, extras⟩, hread, h⟩ := bind_eq_ok_iff.1 h
  have hb : b.Within (IsCleared argv) := by
    refine within_of_read (fun e he flag hflag => ?_) within_initial hread
    exact ⟨e.1, of_mem_tokens (mapError_eq_ok_iff.1 hts) he hflag⟩
  dsimp only at h
  split at h
  · cases h
  · split at h
    · cases h
      exact hb
    · cases h

/-- Where no number is taken away, all of them have values. -/
theorem Within.sets {cleared : Flag → Prop} (ha : a.Within cleared) (hcleared : ∀ flag, cleared flag → flag = .out) :
    ∃ p : Parameters Float, a.Sets p ∧ p.IsProper := by
  obtain ⟨x, hx, hxs⟩ := exists_of_elim ha.minCoupling fun h => nomatch hcleared _ h
  obtain ⟨m, hm, hms⟩ := exists_of_elim ha.maxModules fun h => nomatch hcleared _ h
  obtain ⟨y, hy, hys⟩ := exists_of_elim ha.threshold fun h => nomatch hcleared _ h
  obtain ⟨cap, hcap, hcaps⟩ := exists_of_elim ha.maxSelected fun h => nomatch hcleared _ h
  exact ⟨⟨x, m, y, cap⟩, ⟨hx, hm, hy, hcap⟩, ⟨hxs, hms, hys⟩, hcaps⟩

end Arguments

end CouplingTree
