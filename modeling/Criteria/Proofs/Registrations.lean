import Criteria.Proofs.DataText
import Criteria.Proofs.Extension
import Mathlib.Data.List.Dedup

/-!
# Registrations

What a registry holds after steps that set it up one after the other.

A step registers functions, each under its name: one of them, or all that are built
in. For every name the last step counts that registers it. What has been under the
name before is gone, whether it was built in or not, and a function that is to stand in
place of one that is built in has to be registered after these.

The argument follows the steps. A step decides on its own names and leaves the others
as they are, so the steps after the last one that registers a name may be left out of
account, and if no step registers it, then all of them. Since the names a step decides
on do not hang on the registry it is applied to, two steps without a name in common may
change places.

## Main definitions

* `Registration.entries`, `Registration.names`: The functions and names of a step.
* `Registration.LastUnder`: The last step that registers a name has a certain function
  for it.

## Theorems

* `Registry.get?_apply_of_mem`, `Registry.get?_apply_of_not_mem`: What a step decides
  on and what it leaves alone.
* `Registry.get?_foldl_of_not_mem`: Steps leave names alone that none of them registers.
* `Registration.exists_lastUnder`: Of the steps that register a name one is the last.
* `Registry.get?_build_of_lastUnder`: It decides what the name stands for.
* `Registry.apply_comm`: Steps without a name in common may change places.
* `Registry.last_registration_wins`: Calls, names and size of a registry that has been
  set up, and changes of the steps that it does not notice.
-/

namespace Criteria

namespace Bindings

variable {α : Type}

theorem mem_names_iff (m : Bindings α) (name : String) :
    name ∈ m.names ↔ m.contains name = true := by
  rw [contains, get?, List.lookup_isSome_iff, names, List.mem_map]
  refine exists_congr fun e => and_congr_right fun _ => ?_
  rw [beq_iff_eq, eq_comm]

theorem names_nodup (m : Bindings α) : m.names.Nodup :=
  List.pairwise_map.2 m.names_distinct

end Bindings

namespace Registration

variable {m : Type → Type} [Monad m]

/-- The functions that a step registers, under their names. -/
def entries : Registration m → List (String × Handler m)
  | .function name h => [(name, h)]
  | .builtins => Builtin.all

/-- The names that a step registers. -/
def names (step : Registration m) : List String :=
  step.entries.map Prod.fst

/-- No step registers two functions under one name. -/
theorem entries_distinct (step : Registration m) :
    step.entries.Pairwise fun a b => a.1 ≠ b.1 := by
  cases step with
  | function name h => exact List.pairwise_singleton _ _
  | builtins =>
      have hnodup : (Builtin.all (m := m)).map Prod.fst |>.Nodup := by
        rw [Builtin.names_eq]
        decide
      exact List.pairwise_map.1 hnodup

theorem mem_names {step : Registration m} {name : String} :
    name ∈ step.names ↔ ∃ h, (name, h) ∈ step.entries := by
  rw [names, List.mem_map]
  constructor
  · rintro ⟨⟨key, h⟩, hmem, rfl⟩
    exact ⟨h, hmem⟩
  · rintro ⟨h, hmem⟩
    exact ⟨(name, h), hmem, rfl⟩

/-- Of the steps that register a name, the last one has this function for it. -/
def LastUnder (steps : List (Registration m)) (name : String) (h : Handler m) : Prop :=
  ∃ (before after : List (Registration m)) (step : Registration m),
    steps = before ++ step :: after ∧ (name, h) ∈ step.entries ∧
      ∀ later ∈ after, name ∉ later.names

/-- If a name is registered at all, one step is the last to do so. -/
theorem exists_lastUnder {steps : List (Registration m)} {name : String}
    (h : ∃ step ∈ steps, name ∈ step.names) : ∃ handler, LastUnder steps name handler := by
  -- The induction is on the end of the steps, since it is there that the search begins.
  induction steps using List.reverseRecOn with
  | nil =>
      obtain ⟨step, hstep, _⟩ := h
      cases hstep
  | append_singleton steps final ih =>
      by_cases hfinal : name ∈ final.names
      · obtain ⟨handler, hmem⟩ := mem_names.1 hfinal
        exact ⟨handler, steps, [], final, rfl, hmem, fun _ hlater => nomatch hlater⟩
      · obtain ⟨step, hstep, hname⟩ := h
        have hmem : step ∈ steps := by
          rcases List.mem_append.1 hstep with hmem | hmem
          · exact hmem
          · exact absurd (List.mem_singleton.1 hmem ▸ hname) hfinal
        obtain ⟨handler, before, after, last, rfl, hlast, hafter⟩ := ih ⟨step, hmem, hname⟩
        refine ⟨handler, before, after ++ [final], last, List.append_assoc _ _ _, hlast, ?_⟩
        intro later hlater
        rcases List.mem_append.1 hlater with hlater | hlater
        · exact hafter later hlater
        · exact List.mem_singleton.1 hlater ▸ hfinal

end Registration

namespace Registry

variable {m : Type → Type}

/-- Of several functions under different names, each is found under its own. -/
theorem get?_registerAll_of_mem {added : List (String × Handler m)}
    (hdistinct : added.Pairwise fun a b => a.1 ≠ b.1) {name : String} {h : Handler m}
    (hmem : (name, h) ∈ added) (r : Registry m) :
    (r.registerAll added).get? name = some h := by
  induction hdistinct generalizing r with
  | nil => cases hmem
  | @cons first rest hfirst _ ih =>
      rcases List.mem_cons.1 hmem with heq | hrest
      · subst heq
        -- The functions that follow are under other names.
        have hothers : ∀ f ∈ rest, f.1 ≠ name := fun f hf => (hfirst f hf).symm
        have hget := get?_registerAll hothers (r.register name h)
        rw [get?_register, if_pos rfl] at hget
        exact hget
      · exact ih hrest (r.register first.1 first.2)

/-- Registries with the same functions under all names are equal. -/
theorem ext_get? {r r' : Registry m} (h : ∀ name, r.get? name = r'.get? name) : r = r' :=
  congrArg Registry.mk (Bindings.ext_get? h)

variable [Monad m]

theorem apply_eq_registerAll (r : Registry m) (step : Registration m) :
    r.apply step = r.registerAll step.entries := by
  cases step with
  | function name h => rfl
  | builtins => rfl

/-- A step decides on the names that it registers. -/
theorem get?_apply_of_mem {step : Registration m} {name : String} {h : Handler m}
    (hmem : (name, h) ∈ step.entries) (r : Registry m) : (r.apply step).get? name = some h := by
  rw [apply_eq_registerAll]
  exact get?_registerAll_of_mem step.entries_distinct hmem r

/-- A step leaves all other names alone. -/
theorem get?_apply_of_not_mem {step : Registration m} {name : String} (h : name ∉ step.names)
    (r : Registry m) : (r.apply step).get? name = r.get? name := by
  rw [apply_eq_registerAll]
  refine get?_registerAll (fun f hf heq => h ?_) r
  exact heq ▸ List.mem_map_of_mem hf

/-- Steps leave a name alone that none of them registers. -/
theorem get?_foldl_of_not_mem {steps : List (Registration m)} {name : String}
    (h : ∀ step ∈ steps, name ∉ step.names) (r : Registry m) :
    (steps.foldl apply r).get? name = r.get? name := by
  induction steps generalizing r with
  | nil => rfl
  | cons step rest ih =>
      rw [List.foldl_cons, ih (fun later hlater => h later (List.mem_cons_of_mem _ hlater)),
        get?_apply_of_not_mem (h step List.mem_cons_self)]

/-- What a name stands for is decided by the last step that registers it. -/
theorem get?_build_of_lastUnder {steps : List (Registration m)} {name : String} {h : Handler m}
    (hlast : Registration.LastUnder steps name h) : (build steps).get? name = some h := by
  obtain ⟨before, after, step, rfl, hmem, hafter⟩ := hlast
  rw [build, List.foldl_append, List.foldl_cons, get?_foldl_of_not_mem hafter,
    get?_apply_of_mem hmem]

theorem get?_build_of_not_mem {steps : List (Registration m)} {name : String}
    (h : ∀ step ∈ steps, name ∉ step.names) : (build steps).get? name = none :=
  get?_foldl_of_not_mem h empty

theorem contains_build_iff (steps : List (Registration m)) (name : String) :
    (build steps).contains name = true ↔ ∃ step ∈ steps, name ∈ step.names := by
  rw [contains, Bindings.contains, ← get?]
  constructor
  · intro hsome
    by_contra hnone
    have hnot : ∀ step ∈ steps, name ∉ step.names := fun step hstep hname =>
      hnone ⟨step, hstep, hname⟩
    rw [get?_build_of_not_mem hnot] at hsome
    cases hsome
  · intro hregistered
    obtain ⟨h, hlast⟩ := Registration.exists_lastUnder hregistered
    rw [get?_build_of_lastUnder hlast, Option.isSome_some]

theorem mem_names_build_iff (steps : List (Registration m)) (name : String) :
    name ∈ (build steps).names ↔ ∃ step ∈ steps, name ∈ step.names :=
  ((build steps).functions.mem_names_iff name).trans (contains_build_iff steps name)

/-- The names of a registry are the registered ones, counted once each. -/
theorem size_build (steps : List (Registration m)) :
    (build steps).size = (steps.flatMap Registration.names).dedup.length := by
  have hperm : (build steps).names.Perm (steps.flatMap Registration.names).dedup := by
    refine (List.perm_ext_iff_of_nodup (build steps).functions.names_nodup
      (List.nodup_dedup _)).2 fun name => ?_
    rw [List.mem_dedup, List.mem_flatMap]
    exact mem_names_build_iff steps name
  rw [← hperm.length_eq]
  exact (List.length_map _).symm

/-- A step without a name may as well come later, as far as this name goes. -/
theorem get?_apply_comm {x y : Registration m} {name : String} (h : name ∉ x.names)
    (r : Registry m) : ((r.apply x).apply y).get? name = ((r.apply y).apply x).get? name := by
  rw [get?_apply_of_not_mem h]
  by_cases hy : name ∈ y.names
  · obtain ⟨handler, hmem⟩ := Registration.mem_names.1 hy
    rw [get?_apply_of_mem hmem, get?_apply_of_mem hmem]
  · rw [get?_apply_of_not_mem hy, get?_apply_of_not_mem hy, get?_apply_of_not_mem h]

/-- Two steps that have no name in common may change places. -/
theorem apply_comm {x y : Registration m} (h : x.names.Disjoint y.names) (r : Registry m) :
    (r.apply x).apply y = (r.apply y).apply x := by
  refine ext_get? fun name => ?_
  by_cases hx : name ∈ x.names
  · exact (get?_apply_comm (fun hy => h hx hy) r).symm
  · exact get?_apply_comm hx r

/-- Of the functions that steps register under a name, the last one is there in the end.
    A call is a call of this function, with the arguments as they are and its result
    as it is; a call by a name that no step registers is an error whatever the arguments
    are. The names are the registered ones, each of them listed once, and the size
    is their number. The registry does not notice whether two steps that have no name in
    common have changed places, and all functions that are built in may as well be
    registered by a step each. -/
theorem last_registration_wins (steps : List (Registration m)) :
    let r := build steps
    (∀ name h, Registration.LastUnder steps name h →
      ∀ s arguments c, r.call name s arguments c = h s arguments c) ∧
    (∀ name, (∀ step ∈ steps, name ∉ step.names) →
      ∀ s arguments c, r.call name s arguments c = throw (.unknownFunction name)) ∧
    (∀ name, (∃ step ∈ steps, name ∈ step.names) →
      ∃ h, Registration.LastUnder steps name h) ∧
    (∀ name, r.contains name = true ↔ ∃ step ∈ steps, name ∈ step.names) ∧
    (∀ name, name ∈ r.names ↔ ∃ step ∈ steps, name ∈ step.names) ∧ r.names.Nodup ∧
    r.size = (steps.flatMap Registration.names).dedup.length ∧
    (∀ (before after : List (Registration m)) (x y : Registration m),
      steps = before ++ x :: y :: after → x.names.Disjoint y.names →
        build (before ++ y :: x :: after) = r) ∧
    (∀ before after : List (Registration m), steps = before ++ .builtins :: after →
      build (before ++ Builtin.all.map (fun f => .function f.1 f.2) ++ after) = r) := by
  intro r
  refine ⟨?called, ?unknown, fun _ => Registration.exists_lastUnder, contains_build_iff steps,
    mem_names_build_iff steps, r.functions.names_nodup, size_build steps, ?exchanged, ?builtin⟩
  case called =>
    intro name h hlast s arguments c
    rw [call, get?_build_of_lastUnder hlast]
  case unknown =>
    intro name hnot s arguments c
    rw [call, get?_build_of_not_mem hnot]
  case exchanged =>
    rintro before after x y rfl hdisjoint
    simp only [r, build, List.foldl_append, List.foldl_cons, apply_comm hdisjoint]
  case builtin =>
    rintro before after rfl
    simp only [r, build, List.foldl_append, List.foldl_cons, List.foldl_map]
    rfl

/-- A function `len` that is registered after the built-in ones is called in place of
    theirs, and one that is registered before them is not. A function `size` can be
    registered before or after. -/
theorem last_registration_wins_len :
    let mute : Handler Id := fun _ _ _ => pure (.bool false)
    let late : List (Registration Id) := [.builtins, .function "len" mute]
    let early : List (Registration Id) := [.function "len" mute, .builtins]
    let beside : List (Registration Id) := [.function "size" mute, .builtins]
    (∀ s arguments c, (build late).call "len" s arguments c = mute s arguments c) ∧
      (∀ s arguments c, (build early).call "len" s arguments c = Builtin.length s arguments c) ∧
      (∀ s arguments c,
        (build late).call "size" s arguments c = throw (.unknownFunction "size")) ∧
      (build late).size = 6 ∧ (build beside).size = 7 ∧
      build [.builtins, .function "size" mute] = build beside := by
  intro mute late early beside
  have hlate := last_registration_wins late
  have hearly := last_registration_wins early
  have hbeside := last_registration_wins beside
  have hmute : Registration.LastUnder late "len" mute :=
    ⟨[.builtins], [], .function "len" mute, rfl, List.mem_singleton.2 rfl,
      fun _ hlater => nomatch hlater⟩
  have hlength : Registration.LastUnder early "len" Builtin.length := by
    refine ⟨[.function "len" mute], [], .builtins, rfl, ?_, fun _ hlater => nomatch hlater⟩
    simp only [Registration.entries, Builtin.all, List.mem_cons, true_or, or_true]
  have hsize : ∀ step ∈ late, "size" ∉ step.names := by
    intro step hstep
    rcases List.mem_cons.1 hstep with rfl | hstep
    · decide
    · rw [List.mem_singleton.1 hstep]
      decide
  have hdisjoint : (Registration.function "size" mute).names.Disjoint
      (Registration.builtins (m := Id)).names :=
    List.singleton_disjoint.2 (by decide)
  exact ⟨hlate.1 "len" mute hmute, hearly.1 "len" _ hlength, hlate.2.1 "size" hsize,
    hlate.2.2.2.2.2.2.1.trans (by decide), hbeside.2.2.2.2.2.2.1.trans (by decide),
    hbeside.2.2.2.2.2.2.2.1 [] [] _ _ rfl hdisjoint⟩

end Registry

end Criteria
