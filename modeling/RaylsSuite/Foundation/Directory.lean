import Mathlib.Data.List.Nodup

/-! # A directory of named files

Writing a file replaces the one of its name, so a directory never holds two
files of one name, whoever wrote them.
-/

namespace RaylsSuite.Foundation

universe u v

structure Directory (Name : Type u) (Content : Type v) where
  files : List (Name × Content)
  names_nodup : (files.map Prod.fst).Nodup

namespace Directory

variable {Name : Type u} {Content : Type v} (directory : Directory Name Content)

def empty : Directory Name Content := ⟨[], List.nodup_nil⟩

def names : List Name := directory.files.map Prod.fst

/-- The files whose names are kept. -/
def keep (kept : Name → Bool) : Directory Name Content where
  files := directory.files.filter fun file => kept file.1
  names_nodup := directory.names_nodup.sublist (List.filter_sublist.map Prod.fst)

theorem mem_keep {kept : Name → Bool} {file : Name × Content} :
    file ∈ (directory.keep kept).files ↔ file ∈ directory.files ∧ kept file.1 = true :=
  List.mem_filter

variable [DecidableEq Name]

def write (name : Name) (content : Content) : Directory Name Content where
  files := (directory.keep (· ≠ name)).files ++ [(name, content)]
  names_nodup := by
    simp only [List.map_append, List.map_cons, List.map_nil]
    refine (directory.keep (· ≠ name)).names_nodup.append (List.nodup_singleton name) ?_
    intro other hother hname
    obtain ⟨file, hfile, rfl⟩ := List.mem_map.mp hother
    have hkept := (directory.mem_keep.mp hfile).2
    exact of_decide_eq_true hkept (List.mem_singleton.mp hname)

variable {directory} {name : Name} {content : Content} {file : Name × Content}

theorem mem_write : file ∈ (directory.write name content).files ↔
    file = (name, content) ∨ file ∈ directory.files ∧ file.1 ≠ name := by
  simp only [write, List.mem_append, mem_keep, decide_eq_true_eq, List.mem_singleton]
  exact or_comm

/-- What holds of every file still does if it holds of the one that is written. -/
theorem forall_mem_write {property : Name × Content → Prop}
    (hfiles : ∀ file ∈ directory.files, property file) (hnew : property (name, content)) :
    ∀ file ∈ (directory.write name content).files, property file := by
  intro file hfile
  rcases mem_write.mp hfile with rfl | ⟨hold, -⟩
  · exact hnew
  · exact hfiles file hold

theorem mem_names_write {other : Name} :
    other ∈ (directory.write name content).names ↔ other = name ∨ other ∈ directory.names := by
  simp only [names, List.mem_map, mem_write]
  constructor
  · rintro ⟨file, rfl | ⟨hfile, -⟩, rfl⟩
    · exact Or.inl rfl
    · exact Or.inr ⟨file, hfile, rfl⟩
  · rintro (rfl | ⟨file, hfile, rfl⟩)
    · exact ⟨(other, content), Or.inl rfl, rfl⟩
    · by_cases hname : file.1 = name
      · exact ⟨(name, content), Or.inl rfl, hname.symm⟩
      · exact ⟨file, Or.inr ⟨hfile, hname⟩, rfl⟩

omit [DecidableEq Name] in
/-- Two files of one name are one file. -/
theorem eq_of_name_eq {first second : Name × Content} (hfirst : first ∈ directory.files)
    (hsecond : second ∈ directory.files) (hname : first.1 = second.1) : first = second :=
  List.inj_on_of_nodup_map directory.names_nodup hfirst hsecond hname

end Directory

end RaylsSuite.Foundation
