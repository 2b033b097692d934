import RealModeTrace.Storage.FileTree
import Mathlib.Tactic.SplitIfs

/-!
# Files in a tree

* `FileTree.node?_setNode`: a node that is set stands at its location;
* `FileTree.exists_create`: the location of a file that can be opened for writing;
* `FileTree.create_eq_ok`: a file that was opened for writing is empty, unless it is a device;
* `FileTree.append_of_file`: a stored file takes all bytes and keeps those it has;
  `FileTree.append_of_refused`: what refuses some bytes refuses all.
-/

namespace RealModeTrace.FileTree

variable {t : FileTree} {loc : Location}

theorem ne_nil_of_file {bytes : ByteArray} (h : t.node? loc = some (.file bytes)) : loc ≠ [] := by
  rintro rfl
  cases h

theorem node?_of_ne_nil (h : loc ≠ []) : t.node? loc = t.entries.lookup loc := by
  cases loc with
  | nil => exact absurd rfl h
  | cons name rest => rfl

/-- A change of the entry at a location changes what is found there. -/
theorem lookup_map {entries : List (Location × Node)} {f : Location × Node → Location × Node}
    {old new : Node} (hfound : entries.lookup loc = some old) (hat : f (loc, old) = (loc, new))
    (hother : ∀ e, e.1 ≠ loc → (f e).1 = e.1) : (entries.map f).lookup loc = some new := by
  induction entries with
  | nil => cases hfound
  | cons e entries ih =>
    obtain ⟨key, node⟩ := e
    rw [List.lookup_cons] at hfound
    rw [List.map_cons]
    by_cases h : loc = key
    · subst h
      rw [beq_self_eq_true] at hfound
      rw [Option.some.inj hfound, hat, List.lookup_cons, beq_self_eq_true]
    · rw [beq_false_of_ne h] at hfound
      have hkey : f (key, node) = (key, (f (key, node)).2) :=
        Prod.ext (hother (key, node) (Ne.symm h)) rfl
      rw [hkey, List.lookup_cons, beq_false_of_ne h]
      exact ih hfound

theorem node?_setNode (node : Node) (h : loc ≠ []) :
    (t.setNode loc node).node? loc = some node := by
  rw [node?_of_ne_nil h]
  unfold setNode
  rw [node?_of_ne_nil h]
  split_ifs with hsome
  · obtain ⟨old, hold⟩ := Option.isSome_iff_exists.1 hsome
    exact lookup_map hold (if_pos rfl) fun e he => by rw [if_neg he]
  · rw [List.lookup_append, Option.not_isSome_iff_eq_none.1 hsome, Option.none_or,
      List.lookup_cons, beq_self_eq_true]

/-- A stored file takes all bytes and keeps those it has. -/
theorem append_of_file {old : ByteArray} (bytes : ByteArray)
    (h : t.node? loc = some (.file old)) :
    ∃ files, t.append loc bytes = .ok files ∧ files.node? loc = some (.file (old ++ bytes)) := by
  have hloc := ne_nil_of_file h
  refine ⟨_, by rw [append, h], ?_⟩
  rw [node?_of_ne_nil hloc] at h ⊢
  refine lookup_map h (by simp only [if_true]) fun e he => ?_
  obtain ⟨key, node⟩ := e
  cases node with
  | file bytes' => exact congrArg Prod.fst (if_neg he)
  | _ => rfl

/-- What refuses some bytes refuses all others, for the same reason. -/
theorem append_of_refused {bytes : ByteArray} {cause : FileError}
    (h : t.append loc bytes = .error cause) (more : ByteArray) :
    t.append loc more = .error cause := by
  unfold append at h ⊢
  split at h
  case h_1 => cases h
  case h_3 => cases h
  all_goals exact h

/-- A file that can be opened for writing at a location. -/
theorem exists_create {path : String} (h : (t.create path).toOption.map Prod.fst = some loc) :
    ∃ files, t.create path = .ok (loc, files) := by
  rcases hcreate : t.create path with cause | ⟨other, files⟩ <;> rw [hcreate] at h
  · cases h
  · obtain rfl : other = loc := Option.some.inj h
    exact ⟨files, rfl⟩

/-- A file that was opened for writing is empty, unless it is a device. -/
theorem create_eq_ok {path : String} {files : FileTree} (h : t.create path = .ok (loc, files)) :
    files.node? loc = some (.file .empty) ∨ ∃ device, t.node? loc = some (.device device) := by
  unfold create at h
  rcases hr : t.route path with cause | r
  · rw [hr] at h
    cases h
  rcases hd : t.parent r.trimSlashes.1 with cause | dir
  · simp only [hr, hd, bind, Except.bind] at h
    cases h
  simp only [hr, hd, bind, Except.bind] at h
  -- a test that fails is an error; otherwise a directory, a file, a device or nothing is there
  split_ifs at h
  rcases hn : t.node? (dir ++ [r.trimSlashes.1.last]) with _ | _ | bytes | device
  all_goals
    rw [hn] at h
    cases h
  · exact Or.inl (node?_setNode _ (List.concat_ne_nil _ _))
  · exact Or.inl (node?_setNode _ (List.concat_ne_nil _ _))
  · exact Or.inr ⟨device, hn⟩

end RealModeTrace.FileTree
