import PageLoom.Proofs.Site.Copy
import PageLoom.Proofs.Site.Footprint

/-!
# The selection of documents

A full build walks over the source and leaves out the directories that are excluded or too deep; an
update of one file decides by the path of the file alone. Both pick the same documents: no
directory above a document is left out, as what excludes a directory excludes all that is in it, and
a directory is too deep only if all that is in it is.
-/

namespace PageLoom.Site

open Disk BuildAction

section Documents

variable {disk : Disk} {rule : DocumentRule} {root : Location} {height : Nat}

theorem isDocument_append {below : List Text} :
    isDocument rule root (root ++ below) = true ↔
      rule.extensions.contains (Text.lower (suffixOf (root ++ below))) = true ∧
        isExcluded rule.exclude (root ++ below) = false ∧
        rule.depth.all (fun depth => decide (depthBelow below ≤ depth)) = true ∧
        rule.stems.all (fun stems => stems.contains (stemOf (root ++ below))) = true := by
  rw [isDocument, below?_append]
  simp [and_assoc]

/-- The search for documents visits every directory above a document. -/
theorem mem_searched (hdisk : disk.WellFormed) {below rest : List Text} {folder name : Text}
    (hdirectory : disk.isDirectory (root ++ below ++ [folder]) = true)
    (hdocument : isDocument rule root (root ++ (below ++ folder :: name :: rest)) = true) :
    folder ∈ searched disk rule root below := by
  obtain ⟨-, hexcluded, hdepth, -⟩ := isDocument_append.mp hdocument
  have hvisited : isExcluded rule.exclude (root ++ below ++ [folder]) = false :=
    isExcluded_eq_false_of_above ⟨name :: rest, by simp⟩ hexcluded
  have hdeeper :
      ¬rule.depth.any (fun depth => decide (depth ≤ (below.length : Int))) = true := by
    cases hlimit : rule.depth with
    | none => exact Bool.false_ne_true
    | some depth =>
        rw [hlimit, Option.all_some, decide_eq_true_eq, depthBelow] at hdepth
        rw [Option.any_some, decide_eq_true_eq]
        simp only [List.length_append, List.length_cons] at hdepth
        omega
  rw [searched, if_neg hdeeper, mem_foldersToVisit hdisk]
  exact ⟨isDirectory_iff.mp hdirectory, hvisited⟩

theorem mem_documentsBelow (hdisk : disk.WellFormed) {below rest : List Text} {name : Text}
    (htall : Tall disk (root ++ below) height)
    (hfile : disk.isFile (root ++ (below ++ name :: rest)) = true)
    (hdocument : isDocument rule root (root ++ (below ++ name :: rest)) = true) :
    root ++ (below ++ name :: rest) ∈ documentsBelow disk rule root height below := by
  obtain ⟨bytes, hbytes⟩ := isFile_iff.mp hfile
  induction rest generalizing below name height with
  | nil =>
      have hdirectory : disk.isDirectory (root ++ below) = true := by
        apply hdisk.isDirectory_of_prefix hbytes
        · exact ⟨[name], by simp⟩
        · simp
      obtain ⟨lower, rfl⟩ := htall.pos hdirectory
      rw [documentsBelow_succ rule hdirectory]
      rw [← List.append_assoc] at hbytes hdocument ⊢
      have hname := hdisk.mem_filesIn.mpr ⟨bytes, hbytes⟩
      exact List.mem_append_left _
        (List.mem_filter.mpr ⟨List.mem_map.mpr ⟨name, hname, rfl⟩, hdocument⟩)
  | cons second rest ih =>
      have hdirectory : ∀ place, place <+: below ++ [name] →
          disk.isDirectory (root ++ place) = true := by
        rintro place ⟨others, hothers⟩
        apply hdisk.isDirectory_of_prefix hbytes
        · refine ⟨others ++ second :: rest, ?_⟩
          rw [List.append_assoc, ← List.append_assoc place, hothers, List.append_assoc]
          rfl
        · intro hsame
          have hlength := congrArg List.length hsame
          have hnames := congrArg List.length hothers
          simp only [List.length_append, List.length_cons, List.length_nil] at hlength hnames
          omega
      obtain ⟨lower, rfl⟩ := htall.pos (hdirectory below (List.prefix_append ..))
      have hfolder := hdirectory (below ++ [name]) (List.prefix_refl _)
      rw [← List.append_assoc] at hfolder
      rw [documentsBelow_succ rule (hdirectory below (List.prefix_append ..))]
      refine List.mem_append_right _ (List.mem_flatMap.mpr
        ⟨name, mem_searched hdisk hfolder hdocument, ?_⟩)
      have hlower : Tall disk (root ++ (below ++ [name])) lower := by
        rw [← List.append_assoc]
        exact htall.child name
      have hsplit : below ++ name :: second :: rest = below ++ [name] ++ second :: rest := by simp
      rw [hsplit] at hfile hdocument hbytes ⊢
      exact ih hlower hfile hdocument hbytes

/-- The documents below a root are the files that are told from others as such. -/
theorem mem_documents_iff (hdisk : disk.WellFormed) {below : List Text} (hbelow : below ≠ []) :
    root ++ below ∈ documents disk rule root ↔
      disk.isFile (root ++ below) = true ∧ isDocument rule root (root ++ below) = true := by
  constructor
  · intro hmem
    exact ⟨(of_mem_documentsBelow hdisk hmem).1, isDocument_of_mem_documentsBelow hmem⟩
  · rintro ⟨hfile, hdocument⟩
    obtain ⟨name, rest, rfl⟩ := List.exists_cons_of_ne_nil hbelow
    have htall : Tall disk (root ++ []) (disk.height + 1) := by
      rw [List.append_nil]
      exact tall_height hdisk root
    exact mem_documentsBelow hdisk htall hfile hdocument

end Documents

namespace Plan

variable {plan : Plan} {disk : Disk} {below : List Text}

/-- The documents that a full build finds under the source stand in its list once, and they are the
files of the source that an update takes for documents. -/
theorem nodup_and_mem_documents (plan : Plan) (hdisk : disk.WellFormed) :
    (documents disk plan.rule plan.source).Nodup ∧
      (∀ place ∈ documents disk plan.rule plan.source,
        ∃ below, below ≠ [] ∧ place = plan.source ++ below ∧ disk.isFile place = true) ∧
      ∀ below, below ≠ [] → disk.isFile (plan.source ++ below) = true →
        (plan.source ++ below ∈ documents disk plan.rule plan.source ↔
          plan.isDocument (plan.source ++ below) = true) := by
  refine ⟨nodup_documentsBelow hdisk plan.rule plan.source _ [], ?_, ?_⟩
  · intro place hmem
    obtain ⟨hfile, name, rest, rfl⟩ := of_mem_documentsBelow hdisk hmem
    exact ⟨name :: rest, by simp, by simp, hfile⟩
  · intro below hbelow hfile
    rw [mem_documents_iff hdisk hbelow, and_iff_right hfile]
    rfl

/-- An update expands a file of the source if a full build would expand it, and copies it
otherwise. -/
theorem refresh_of_isFile (hdisk : disk.WellFormed) (hbelow : below ≠ [])
    (hfile : disk.isFile (plan.source ++ below) = true) :
    plan.refresh (plan.source ++ below) =
      if plan.source ++ below ∈ documents disk plan.rule plan.source then do
        modify fun state => { state with session := state.session.clearCache }
        plan.renderFile (plan.source ++ below)
      else do
        onDisk (DiskAction.copyFile (plan.source ++ below) (plan.output ++ below))
        return plan.output ++ below := by
  simp only [mem_documents_iff hdisk hbelow, hfile, true_and]
  rw [refresh, outputOf?, below?_append]
  rfl

/-- A plan that builds a site into a directory of the site itself. -/
def innerPlan : Plan where
  config := defaultConfig
  source := ["site".toList]
  output := ["site".toList, "out".toList]
  components := ["components".toList]
  output_ne_source := by decide

/-- A plan with its output and its components in the source, for documents of two names that lie in
the source itself or one directory below. -/
def crowdedPlan : Plan :=
  { innerPlan with
    config := { defaultConfig with
      depth := some 1
      names := some ["index".toList, "page".toList] }
    components := ["site".toList, "parts".toList] }

/-- A site for that plan: with a document in the source and one below it, with one that is too deep
and one of another name, and with files in the output and among the components, and the lock. -/
def crowdedSite : Disk := ⟨[
  (["site".toList], .directory),
  (["site".toList, "index.html".toList], .file []),
  (["site".toList, "style.css".toList], .file []),
  (["site".toList, "news".toList], .directory),
  (["site".toList, "news".toList, "page.HTML".toList], .file []),
  (["site".toList, "news".toList, "draft.html".toList], .file []),
  (["site".toList, "news".toList, "old".toList], .directory),
  (["site".toList, "news".toList, "old".toList, "page.html".toList], .file []),
  (["site".toList, "out".toList], .directory),
  (["site".toList, "out".toList, "index.html".toList], .file []),
  (["site".toList, "out.lock".toList], .file []),
  (["site".toList, "parts".toList], .directory),
  (["site".toList, "parts".toList, "page.html".toList], .file [])]⟩

theorem crowdedSite_wellFormed : crowdedSite.WellFormed := by decide +kernel

/-- The documents of that site. -/
def crowdedDocuments : List Location :=
  [["site".toList, "index.html".toList], ["site".toList, "news".toList, "page.HTML".toList]]

theorem isDocument_crowdedSite {place : Location} (hfile : crowdedSite.isFile place = true) :
    crowdedPlan.isDocument place = true ↔ place ∈ crowdedDocuments := by
  have hall : ∀ entry ∈ crowdedSite.entries, crowdedSite.isFile entry.1 = true →
      (crowdedPlan.isDocument entry.1 = true ↔ entry.1 ∈ crowdedDocuments) := by
    decide +kernel
  obtain ⟨bytes, hfound⟩ := isFile_iff.mp hfile
  exact hall (place, .file bytes)
    (crowdedSite_wellFormed.mem_iff.mpr ⟨ne_nil_of_isFile hfile, hfound⟩) hfile

/-- Of the eight files of that site, two are found. -/
theorem nodup_and_mem_documents_crowdedSite :
    crowdedSite.WellFormed ∧
      (documents crowdedSite crowdedPlan.rule crowdedPlan.source).Nodup ∧
      ∀ place, place ∈ documents crowdedSite crowdedPlan.rule crowdedPlan.source ↔
        place ∈ crowdedDocuments := by
  obtain ⟨hnodup, hfiles, hmem⟩ := nodup_and_mem_documents crowdedPlan crowdedSite_wellFormed
  refine ⟨crowdedSite_wellFormed, hnodup, fun place => ⟨fun hplace => ?_, fun hplace => ?_⟩⟩
  · obtain ⟨below, hbelow, rfl, hfile⟩ := hfiles place hplace
    exact (isDocument_crowdedSite hfile).mp ((hmem below hbelow hfile).mp hplace)
  · have hsites : ∀ place ∈ crowdedDocuments, crowdedSite.isFile place = true ∧
        place.tail ≠ [] ∧ place = crowdedPlan.source ++ place.tail := by
      decide +kernel
    obtain ⟨hfile, hbelow, hsame⟩ := hsites place hplace
    rw [hsame] at hfile hplace ⊢
    exact (hmem _ hbelow hfile).mpr ((isDocument_crowdedSite hfile).mpr hplace)

end Plan

end PageLoom.Site
