import FrameLoop.Proofs.Settings.Library
import Mathlib.Data.List.Induction
import Mathlib.Data.List.Pairwise

/-!
# What variables set

Variables are made into a tree by laying one after the other over what is there, in their
order. That order shows only where two variables set the same node, or one of them a node
beneath the other's. Where no two do (`Separate`), what stands at a path is what the first
variable says that says anything of it, whatever their order (`at?_ofVariables`, `set?_perm`).

"What stands there" is meant as far as a setting goes that is no table: two variables that
set nodes beneath one path make a table there between them, and each of them says a table
of its own.

Besides, only the variables of this program are read at all (`ofVariables_filter`).
-/

namespace FrameLoop.Settings

open Environment (after? segments)

variable {l : Library} {v u w : Node} {p q : List String} {x y : String × String}
  {vars vars' : List (String × String)}

/-! ## A tree with one node in it -/

theorem tidy_nest (tidy : v.Tidy) (q : List String) : (nest v q).Tidy := by
  induction q with
  | nil => exact tidy
  | cons k q ih => exact ⟨List.nodup_singleton k, ih, trivial⟩

/-- **What stands at a path in the tree with one node in it**: something of the node, if it
is on the path; a table, if it is beneath it; and nothing otherwise, nor is anything in the
way. -/
theorem nest_cases (v : Node) (q p : List String) :
    q <+: p ∨ (∃ u, (nest v q).at? p = some u ∧ u.isTable = true ∧ p <+: q) ∨
      (nest v q).at? p = none ∧ (nest v q).Clear p := by
  induction q generalizing p with
  | nil => exact .inl p.nil_prefix
  | cons k q ih =>
    cases p with
    | nil => exact .inr (.inl ⟨_, Node.at?_nil, rfl, List.nil_prefix⟩)
    | cons l p =>
      by_cases same : l = k
      · subst same
        have onward : (nest v (l :: q)).at? (l :: p) = (nest v q).at? p := by
          rw [nest, Node.at?_table, List.lookup_cons_self, Option.bind_some]
        rw [List.cons_prefix_cons, List.cons_prefix_cons, onward]
        simp only [true_and]
        refine (ih p).imp_right (Or.imp_right (And.imp_right fun clear => ?_))
        refine .cons fun w found => ?_
        obtain rfl := Option.some.inj (List.lookup_cons_self.symm.trans found)
        exact clear
      · have none : [(k, nest v q)].lookup l = none := by simpa using same
        refine .inr (.inr ⟨by rw [nest, Node.at?_table, none]; rfl, .cons fun w found => ?_⟩)
        rw [none] at found
        cases found

/-! ## Which variables are settings -/

/-- **The way to the node that a variable sets**, if it is a setting of this program. -/
def way? (name : String) : Option (List String) :=
  Environment.path? "FRAMEPACE_" ["config"] "__" name

theorem Library.Lawful.path?_eq (lawful : l.Lawful) (name : String) : l.path? name = way? name :=
  lawful.target_eq ..

theorem segments_ne_nil (s : List Char) : segments s ≠ [] := by
  fun_cases segments s <;> simp [*]

/-- No variable sets the tree as a whole. -/
theorem way?_ne_nil {name : String} (h : way? name = some q) : q ≠ [] := by
  obtain ⟨rest, -, h⟩ := Option.bind_eq_some_iff.1 h
  split at h
  · cases h
  · dsimp only at h
    split at h
    · cases h
    · cases h
      rw [ne_eq, List.map_eq_nil_iff]
      exact segments_ne_nil _

/-- **What a variable says of a path**: a table, where it sets something beneath it. -/
def Library.says? (l : Library) (x : String × String) (p : List String) : Option Node :=
  (way? x.1).bind fun q => (nest (l.value x.2) q).at? p

/-- **What variables set at a path**: what the first of them says that says anything. -/
def Library.set? (l : Library) (vars : List (String × String)) (p : List String) : Option Node :=
  vars.findSome? (l.says? · p)

/-- Neither of two variables sets the node that the other sets, nor one beneath it. -/
def Apart (x y : String × String) : Prop :=
  ∀ q ∈ way? x.1, ∀ r ∈ way? y.1, ¬ q <+: r ∧ ¬ r <+: q

/-- **No two variables set the same node, or one of them a node beneath the other's.** -/
def Separate (vars : List (String × String)) : Prop := vars.Pairwise Apart

instance : Std.Symm Apart := ⟨fun _ _ apart r hr q hq => (apart q hq r hr).symm⟩

theorem Library.says?_of_way (h : way? x.1 = some q) (p : List String) :
    l.says? x p = (nest (l.value x.2) q).at? p := by
  rw [says?, h, Option.bind_some]

theorem Library.says?_of_no_way (h : way? x.1 = none) (p : List String) : l.says? x p = none := by
  rw [says?, h, Option.bind_none]

/-- A variable says something only if what it sets is above the path or beneath it. Beneath
it, that is a table. -/
theorem Library.says?_cases (said : l.says? x p = some w) :
    ∃ q, way? x.1 = some q ∧ (q <+: p ∨ w.isTable = true ∧ p <+: q) := by
  obtain ⟨q, way, there⟩ := Option.bind_eq_some_iff.1 said
  refine ⟨q, way, ?_⟩
  rcases nest_cases (l.value x.2) q p with above | ⟨u, here, table, beneath⟩ | ⟨none, -⟩
  · exact .inl above
  · exact .inr ⟨Option.some.inj (here.symm.trans there) ▸ table, beneath⟩
  · cases none.symm.trans there

/-- Where one variable sets what a path leads to or through, no other one says anything. -/
theorem Apart.says?_none (apart : Apart y x) (way : way? x.1 = some q) (above : q <+: p) :
    l.says? y p = none := by
  refine Option.eq_none_iff_forall_ne_some.2 fun w said => ?_
  obtain ⟨r, way', at_⟩ := Library.says?_cases said
  obtain ⟨not_above, not_beneath⟩ := apart r way' q way
  rcases at_ with above' | ⟨-, beneath'⟩
  · exact (List.prefix_or_prefix_of_prefix above' above).elim not_above not_beneath
  · exact not_beneath (above.trans beneath')

/-- Of two variables that both say something of a path, each says a table. -/
theorem Apart.isTable (apart : Apart x y) (one : l.says? x p = some v)
    (other : l.says? y p = some w) : v.isTable = true := by
  obtain ⟨q, way, above | ⟨table, -⟩⟩ := Library.says?_cases one
  · have none : l.says? y p = none := (symm apart).says?_none way above
    cases none.symm.trans other
  · exact table

/-! ## The order of variables -/

section Reading

variable {α : Type} {read : Node → Option α}

theorem Library.set?_concat (l : Library) (vars : List (String × String)) (x : String × String)
    (p : List String) : l.set? (vars ++ [x]) p = (l.set? vars p).or (l.says? x p) := by
  rw [set?, List.findSome?_append]
  cases h : l.says? x p <;> simp [set?, h]

/-- **The order of the variables does not show.** -/
theorem Library.set?_perm (flat : Node.Flat read) (apart : Separate vars)
    (same : vars.Perm vars') (p : List String) :
    (l.set? vars p).map read = (l.set? vars' p).map read := by
  cases one : l.set? vars p with
  | none =>
    have silent : l.set? vars' p = none := List.findSome?_eq_none_iff.2 fun y hy =>
      List.findSome?_eq_none_iff.1 one y (same.mem_iff.2 hy)
    rw [silent]
  | some v =>
    obtain ⟨x, hx, saidv⟩ := List.exists_of_findSome?_eq_some one
    cases other : l.set? vars' p with
    | none =>
      have silent := List.findSome?_eq_none_iff.1 other x (same.mem_iff.1 hx)
      cases silent.symm.trans saidv
    | some w =>
      obtain ⟨y, hy, saidw⟩ := List.exists_of_findSome?_eq_some other
      by_cases h : x = y
      · subst h
        rw [Option.some.inj (saidv.symm.trans saidw)]
      · have apart := apart.forall hx (same.mem_iff.2 hy) h
        rw [Option.map_some, Option.map_some, flat v (apart.isTable saidv saidw),
          flat w ((symm apart).isTable saidw saidv)]

end Reading

/-! ## The tree that variables make -/

theorem Library.ofVariables_concat (l : Library) (vars : List (String × String))
    (x : String × String) : l.ofVariables (vars ++ [x]) = l.layOver (l.ofVariables vars) x :=
  List.foldl_concat ..

namespace Library.Lawful

variable (lawful : l.Lawful)
include lawful

theorem layOver_of_way {q : List String} (h : way? x.1 = some q) (tree : Node) :
    l.layOver tree x = l.overlay tree (nest (l.value x.2) q) := by
  rw [layOver, lawful.path?_eq, h]

theorem layOver_of_no_way (h : way? x.1 = none) (tree : Node) : l.layOver tree x = tree := by
  rw [layOver, lawful.path?_eq, h]

theorem tidy_ofVariables (vars : List (String × String)) : (l.ofVariables vars).Tidy := by
  induction vars using List.reverseRecOn with
  | nil => exact ⟨List.nodup_nil, trivial⟩
  | append_singleton vars x ih =>
    rw [ofVariables_concat]
    cases way : way? x.1 with
    | none => rwa [lawful.layOver_of_no_way way]
    | some q =>
      rw [lawful.layOver_of_way way]
      exact lawful.overlays.tidy _ _ ih (tidy_nest (lawful.tidy_value _) _)

theorem isTable_ofVariables (vars : List (String × String)) :
    (l.ofVariables vars).isTable = true := by
  induction vars using List.reverseRecOn with
  | nil => rfl
  | append_singleton vars x ih =>
    rw [ofVariables_concat]
    cases way : way? x.1 with
    | none => rwa [lawful.layOver_of_no_way way]
    | some q =>
      rw [lawful.layOver_of_way way, lawful.overlays.isTable_eq]
      obtain ⟨k, q, rfl⟩ := List.exists_cons_of_ne_nil (way?_ne_nil way)
      rfl

section Reading

variable {α : Type} {read : Node → Option α}

/-- One more variable, which no earlier one meets. -/
theorem at?_layOver (flat : Node.Flat read) (last : ∀ y ∈ vars, Apart y x)
    (before : ((l.ofVariables vars).at? p).map read = (l.set? vars p).map read) :
    ((l.layOver (l.ofVariables vars) x).at? p).map read = (l.set? (vars ++ [x]) p).map read := by
  rw [set?_concat]
  cases way : way? x.1 with
  | none => rw [lawful.layOver_of_no_way way, says?_of_no_way way, Option.or_none, before]
  | some q =>
    rw [lawful.layOver_of_way way, says?_of_way way]
    have tidy := tidy_nest (lawful.tidy_value x.2) q
    rcases nest_cases (l.value x.2) q p with above | ⟨u, here, table, beneath⟩ | ⟨none, clear⟩
    · -- no variable before this one has said anything
      have silent : l.set? vars p = none :=
        List.findSome?_eq_none_iff.2 fun y hy => (last y hy).says?_none way above
      have nothing : (l.ofVariables vars).at? p = none := by
        rw [silent, Option.map_none] at before
        exact Option.map_eq_none_iff.1 before
      rw [silent, Option.none_or]
      cases said : (nest (l.value x.2) q).at? p with
      | none => rw [lawful.overlays.at?_of_none tidy nothing said]
      | some u => rw [lawful.overlays.at?_of_some tidy said, nothing]; rfl
    · -- tables on both sides, which are not read
      rw [lawful.overlays.at?_of_some tidy here, here]
      have said : l.says? x p = some u := by rw [says?_of_way way, here]
      rw [Option.map_some, lawful.overlays.read_atop flat]
      cases first : l.set? vars p with
      | none => rw [Option.none_or, Option.map_some]
      | some w =>
        obtain ⟨y, hy, saidw⟩ := List.exists_of_findSome?_eq_some first
        rw [Option.some_or, Option.map_some, flat u table,
          flat w ((last y hy).isTable saidw said)]
    · rw [lawful.overlays.at?_of_clear tidy clear none, none, Option.or_none, before]

/-- **What stands at a path is what the first variable says that says anything of it**, as
far as it can be read, where no table can. -/
theorem at?_ofVariables (flat : Node.Flat read) (apart : Separate vars) (inner : p ≠ []) :
    ((l.ofVariables vars).at? p).map read = (l.set? vars p).map read := by
  induction vars using List.reverseRecOn with
  | nil =>
    obtain ⟨k, p, rfl⟩ := List.exists_cons_of_ne_nil inner
    rfl
  | append_singleton vars x ih =>
    obtain ⟨before, -, last⟩ := List.pairwise_append.1 apart
    rw [ofVariables_concat]
    exact lawful.at?_layOver flat (fun y hy => last y hy x (List.mem_singleton_self x)) (ih before)

end Reading

end Library.Lawful

/-! ## Only settings are read -/

/-- **Whether a variable of that name is one of this program's settings.** -/
def isSetting (name : String) : Bool :=
  let letters := name.toList.map Char.toLower
  "framepace_".toList.isPrefixOf letters && letters != "framepace_config".toList

theorem after?_eq_some {cs s rest : List Char} (h : after? cs s = some rest) : s = cs ++ rest := by
  induction cs generalizing s with
  | nil => exact Option.some.inj h
  | cons c cs ih =>
    cases s with
    | nil => cases h
    | cons d s =>
      rw [after?] at h
      split at h
      · next same => rw [← same, ih h, List.cons_append]
      · cases h

theorem isSetting_of_way {name : String} (h : way? name = some q) : isSetting name = true := by
  obtain ⟨rest, after, h⟩ := Option.bind_eq_some_iff.1 h
  have letters := after?_eq_some after
  rw [show "FRAMEPACE_".toList.map Char.toLower = "framepace_".toList by decide] at letters
  unfold isSetting
  rw [letters, Bool.and_eq_true, List.isPrefixOf_iff_prefix, bne_iff_ne]
  refine ⟨List.prefix_append .., fun config => ?_⟩
  have same : rest = "config".toList := List.append_cancel_left (config.trans (by decide))
  rw [same, if_pos (by decide)] at h
  cases h

/-- **Only this program's settings are read.** -/
theorem Library.Lawful.ofVariables_filter (lawful : l.Lawful)
    (environment : List (String × String)) :
    l.ofVariables (environment.filter (isSetting ·.1)) = l.ofVariables environment := by
  rw [ofVariables, ofVariables, List.foldl_filter]
  refine congrArg (List.foldl · _ _) (funext fun tree => funext fun x => ?_)
  split
  · rfl
  · next other =>
    have none : way? x.1 = none :=
      Option.eq_none_iff_forall_ne_some.2 fun q way => other (isSetting_of_way way)
    rw [lawful.layOver_of_no_way none]

end FrameLoop.Settings
