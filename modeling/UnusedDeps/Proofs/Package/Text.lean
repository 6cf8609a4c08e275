import UnusedDeps.Proofs.Keys
import UnusedDeps.Proofs.Order
import UnusedDeps.Proofs.Text.Lines

/-!
# Identities read back from their texts

The text of an identity has a space behind the name and behind the version, and the
source in parentheses. Where the first two parts hold no space, all three are known
from the text. Main statement: `PackageId.ofText?_text`.
-/

namespace UnusedDeps

theorem Text.IsCoded.append {s t : String} (hs : Text.IsCoded s) (ht : Text.IsCoded t) :
    Text.IsCoded (s ++ t) := by
  obtain ⟨ns, boundn, rfl⟩ := hs
  obtain ⟨ms, boundm, rfl⟩ := ht
  refine ⟨ns ++ ms, List.forall_mem_append.2 ⟨boundn, boundm⟩, ?_⟩
  rw [Text.ofCodes, Text.ofCodes, Text.ofCodes, List.flatMap_append, String.ofList_append]

theorem Value.IsCoded.isText {v : Value} (h : v.IsCoded) : v.IsText := by
  obtain ⟨s, rfl, -⟩ := h
  exact Value.isText_text s

theorem Value.IsCoded.plainText {v : Value} (h : v.IsCoded) : Text.IsCoded v.plainText := by
  obtain ⟨s, rfl, coded⟩ := h
  exact coded

namespace PackageId

theorem IsCoded.isTextual {p : PackageId} (h : p.IsCoded) : p.IsTextual :=
  ⟨h.name.isText, h.version.isText, h.source.isText⟩

theorem IsCoded.text {p : PackageId} (h : p.IsCoded) : Text.IsCoded p.text := by
  have joint : Text.IsCoded " " := Text.isCoded_of_plain (by decide)
  have opening : Text.IsCoded " (" := Text.isCoded_of_plain (by decide)
  have closing : Text.IsCoded ")" := Text.isCoded_of_plain (by decide)
  unfold PackageId.text
  exact ((((h.name.plainText.append joint).append h.version.plainText).append opening).append
    h.source.plainText).append closing

/-- Whether the name and the version hold no space. -/
structure IsSpaceless (p : PackageId) : Prop where
  name : ' ' ∉ p.name.plainText.toList
  version : ' ' ∉ p.version.plainText.toList

/-- The identity with a text: the first two spaces stand behind its name and its version. -/
def ofText? (s : String) : Option PackageId :=
  match Text.cut ' ' s.toList with
  | (name, some rest) =>
    match Text.cut ' ' rest with
    | (version, some ('(' :: source)) =>
      some ⟨.text (String.ofList name), .text (String.ofList version),
        .text (String.ofList source.dropLast)⟩
    | _ => none
  | _ => none

theorem ofText?_text {p : PackageId} (textual : p.IsTextual) (spaceless : p.IsSpaceless) :
    ofText? p.text = some p := by
  obtain ⟨name, version, source, rfl, -⟩ := textual.keys?
  have chars : (PackageId.text ⟨.text name, .text version, .text source⟩).toList =
      name.toList ++ ' ' :: (version.toList ++ ' ' :: ('(' :: (source.toList ++ [')']))) := by
    simp [PackageId.text, Value.plainText]
  have nameless : ' ' ∉ name.toList := spaceless.name
  have versionless : ' ' ∉ version.toList := spaceless.version
  simp only [ofText?, chars, Text.cut_append_cons nameless, Text.cut_append_cons versionless]
  simp

theorem eq_of_text_eq {p q : PackageId} (hp : p.IsTextual) (hq : q.IsTextual)
    (sp : p.IsSpaceless) (sq : q.IsSpaceless) (h : p.text = q.text) : p = q := by
  have same := (ofText?_text hp sp).symm.trans (h ▸ ofText?_text hq sq)
  exact Option.some.inj same

end PackageId

end UnusedDeps
