/- FffChain/Package/ExtractPaths
   source: libraries/package/package.cpp, lines 87-141, 407-444
   digest: Dearchiver::extract creates each file at output_dir / header.name
   and never looks at the name's components. A name that starts with ".."
   resolves beside output_dir, not inside it, so a package can write files
   outside the directory it is unpacked into. -/

import FffChain.Package.Archive

set_option autoImplicit false
set_option relaxedAutoImplicit false

namespace FffChain.Package.ExtractPaths

open FffChain.Package.Archive

/-- The '/' that separates the components of a path. -/
def separator : Byte := 47

/-- Modelled from the spec (boost::filesystem::path is not in the sources): the bytes between separators; a
leading '/' gives an empty first component. -/
def nameComponents (name : List Byte) : List (List Byte) := name.splitOn separator

/-- output_dir / header.name, with output_dir given by its components. -/
def filePath (outputDir : List (List Byte)) (name : List Byte) : List (List Byte) :=
  outputDir ++ nameComponents name

/-- One component of a lexical resolution from the root: "" and "." stay,
".." goes up (never above the root), and any other goes down. -/
def resolveStep (dir : List (List Byte)) (component : List Byte) : List (List Byte) :=
  if component = [] ∨ component = [46] then dir
  else if component = [46, 46] then dir.dropLast
  else dir ++ [component]

/-- A path with its '.' and '..' components resolved, from the root. -/
def resolve (path : List (List Byte)) : List (List Byte) := path.foldl resolveStep []

/-- A path lies inside a directory when, both resolved, it is the directory
followed by at least one more component. -/
def LiesInside (dir path : List (List Byte)) : Prop :=
  resolve dir <+: resolve path ∧ (resolve dir).length < (resolve path).length

instance (dir path : List (List Byte)) : Decidable (LiesInside dir path) :=
  inferInstanceAs (Decidable (_ ∧ _))

/-- "../a": a name that climbs out of the directory it is put under. -/
def parentSibling : List Byte := [46, 46, 47, 97]

theorem resolve_filePath (outputDir : List (List Byte)) (name : List Byte) :
    resolve (filePath outputDir name) = (nameComponents name).foldl resolveStep (resolve outputDir) :=
  List.foldl_append _ _ _ _

/-- For every output_dir below the root, extract writes the file "../a" of an archive at a path that resolves
beside output_dir, not inside it. -/
theorem extract_escapesOutputDir (outputDir : List (List Byte)) (contents : List Byte)
    (belowRoot : resolve outputDir ≠ []) (fits : contents.length < 2 ^ 31) :
    (extract (archive [⟨parentSibling, contents⟩])).written = [⟨parentSibling, contents⟩] ∧
      ¬ LiesInside outputDir (filePath outputDir parentSibling) := by
  have wf : ∀ file ∈ [⟨parentSibling, contents⟩], ArchiveFile.WellFormed file :=
    List.forall_mem_singleton.2 ⟨show parentSibling ≠ [] by decide, show parentSibling.length ≤ 255 by decide,
      show (0 : Byte) ∉ parentSibling by decide, fits⟩
  have beside : resolve (filePath outputDir parentSibling) = (resolve outputDir).dropLast ++ [[97]] := by
    rw [resolve_filePath, show nameComponents parentSibling = [[46, 46], [97]] from rfl]
    simp [resolveStep]
  refine ⟨?_, fun inside => ?_⟩
  · rw [extract, extractLoop_archive _ wf _ (Nat.lt_succ_of_le (length_le_archive _)), extractedFiles,
      extractedFiles]
    split_ifs <;> rfl
  · have deeper := inside.2
    rw [beside, List.length_append, List.length_dropLast, List.length_singleton] at deeper
    have := List.length_pos.2 belowRoot
    omega

/-- Under /out the file "../a" of an archive is written at /a. -/
theorem extract_escapesOutputDir_out :
    (resolve [[111, 117, 116]] ≠ [] ∧ ([] : List Byte).length < 2 ^ 31) ∧
      (extract (archive [⟨parentSibling, []⟩])).written = [⟨parentSibling, []⟩] ∧
        ¬ LiesInside [[111, 117, 116]] (filePath [[111, 117, 116]] parentSibling) :=
  ⟨⟨by decide, by decide⟩, extract_escapesOutputDir [[111, 117, 116]] [] (by decide) (by decide)⟩

end FffChain.Package.ExtractPaths
