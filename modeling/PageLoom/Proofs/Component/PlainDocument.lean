import PageLoom.Proofs.Component.AttributeValue
import PageLoom.Proofs.Markup.Sighting
import PageLoom.Proofs.Text.Replace

/-!
# Documents without anything to expand

A document with no placeholder, no directive and no component tag outside of comments leaves the
cache and the failures alone, whatever the values and the session are. It comes back as it was
exactly if it is told apart from its protected form: what it brings along between two NULs may not
be the number of one of its comments.
-/

namespace PageLoom.Component

open Scan Markup Template

variable {document : Text}

/-- A document with nothing to fill in, to decide or to replace. -/
structure Plain (document : Text) : Prop where
  unfilled : ¬['\x7b', '\x7b'] <:+: document
  undirected : ¬opening <:+: document
  untagged : findTags .document document = []

/-! ## Nothing to fill in -/

theorem substituteProps_of_unfilled (hunfilled : ¬['\x7b', '\x7b'] <:+: document) (props : Props) :
    substituteProps props document = document := by
  unfold substituteProps
  induction props with
  | nil => rfl
  | cons prop rest ih =>
      have habsent : ¬placeholderOf prop.1 <:+: document := fun hpart =>
        hunfilled ((List.prefix_append ['\x7b', '\x7b'] _).isInfix.trans hpart)
      rw [List.foldl_cons, Text.replaceAll_of_not_infix habsent, ih]

theorem Plain.instantiate (hplain : Plain document) (globals : Props) :
    instantiate document globals = .ok document := by
  have hsame := substituteProps_of_unfilled hplain.unfilled globals
  have hundirected : ¬opening <:+: substituteProps globals document := by
    rw [hsame]
    exact hplain.undirected
  rw [instantiate_of_undirected hundirected, hsame]

/-! ## Nothing to replace -/

/-- All that happens to a plain document is that its comments are taken out and put back. -/
theorem Plain.render_eq (hplain : Plain document) (session : Session) (file : Text)
    (globals : Props) :
    session.render document file globals =
      ((restoreComments (protectComments document).2 (protectComments document).1).mapError .fault,
        session) := by
  rw [Session.render_eq]
  dsimp only
  rw [runFrom_render_instantiated (hplain.instantiate globals),
    runFrom_replaceTags_of_invoked_nil hplain.untagged, sourceOf_pieces, andThen_ok]
  rfl

/-- A plain document leaves the session alone, and comes back as it was exactly if it is told apart
from its protected form. -/
theorem Plain.unchanged_iff (hplain : Plain document) (session : Session) (file : Text)
    (globals : Props) :
    ((session.render document file globals).1 = .ok document ↔ Unmistakable document) ∧
      (session.render document file globals).2 = session := by
  rw [hplain.render_eq]
  refine ⟨?_, rfl⟩
  rw [← restoreComments_protectComments_iff]
  cases restoreComments (protectComments document).2 (protectComments document).1 with
  | error fault =>
      constructor
      · intro hsame
        cases hsame
      · intro hsame
        cases hsame
  | ok restored => exact ⟨fun hsame => by cases hsame; rfl, fun hsame => by cases hsame; rfl⟩

/-- The number that this document brings along is that of no comment, so it comes back. -/
theorem unchanged_strange_number :
    Plain "<br/><!--c-->\x005\x00".toList ∧ ∀ (session : Session) (file : Text) (globals : Props),
      session.render "<br/><!--c-->\x005\x00".toList file globals =
        (.ok "<br/><!--c-->\x005\x00".toList, session) := by
  have hplain : Plain "<br/><!--c-->\x005\x00".toList := ⟨by decide, by decide, by decide⟩
  have hsightings : sightings "<br/><!--c-->\x005\x00".toList = [.comment, .placeholder ['5']] := by
    decide
  have hunmistakable : Unmistakable "<br/><!--c-->\x005\x00".toList := by
    refine ⟨by decide +kernel, fun _ => ?_⟩
    rw [hsightings, List.forall_mem_cons, List.forall_mem_singleton]
    exact ⟨trivial, 5, by decide, by decide⟩
  refine ⟨hplain, fun session file globals => ?_⟩
  have hrender := hplain.unchanged_iff session file globals
  exact Prod.ext (hrender.1.mpr hunmistakable) hrender.2

/-- The number that this document brings along is that of its comment, which is written twice. -/
theorem changed_own_number :
    Plain "<!--c-->\x000\x00".toList ∧
      ((Session.ofStore ⟨[], [], Library.empty⟩ false).render "<!--c-->\x000\x00".toList [] []).1 =
        .ok "<!--c--><!--c-->".toList := by
  refine ⟨⟨by decide, by decide, by decide⟩, by decide +kernel⟩

end PageLoom.Component
