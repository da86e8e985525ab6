import RouteAtlas.Proofs.Document.Publishable
import RouteAtlas.Settings.File

/-!
# Settings from any data

A value of the wrong kind counts as absent, so data of every form give settings, with one exception:
an integer beyond the digit limit has no text. Texts are asked for at a few keys, and for the items
of a few lists. Which integers stand there decides alone whether there are settings.
-/

namespace RouteAtlas

namespace Data

/-- The data are no integer beyond the digit limit. -/
def IsShort : Data → Prop
  | .value v => v.IsShort
  | _ => True

/-- What stands behind a chain of keys. -/
def at? (d : Data) : List Text → Option Data
  | [] => some d
  | key :: keys => (d.get? key).bind (·.at? keys)

/-- The keys, in their mappings, at which a text is asked for. -/
def textKeys : List (List Text) := [
  ["framework", "factory"], ["framework", "router_factory"], ["description_marker"],
  ["output", "json"], ["output", "html"]]

/-- The keys at which a list of texts is asked for. -/
def listKeys : List Text := ["excluded", "extensions"]

/-- Nowhere is an integer beyond the digit limit asked for its text. -/
structure AsksShort (d : Data) : Prop where
  single : ∀ keys ∈ textKeys, ∀ v, d.at? keys = some v → v.IsShort
  items : ∀ key ∈ listKeys, ∀ vs, d.get? key = some (.list vs) → ∀ v ∈ vs, v.IsShort

theorem exists_spell_iff (v : Value) : (∃ t, spell v = .ok t) ↔ v.IsShort := by
  cases v with
  | int n =>
      rw [← Numeral.exists_decimal?_iff, spell, Value.toText?]
      cases Numeral.decimal? n <;> simp
  | null => exact iff_of_true ⟨_, rfl⟩ trivial
  | bool b => exact iff_of_true (by cases b <;> exact ⟨_, rfl⟩) trivial
  | real _ => exact iff_of_true ⟨_, rfl⟩ trivial
  | text _ => exact iff_of_true ⟨_, rfl⟩ trivial

theorem exists_itemText_iff (d : Data) : (∃ t, d.itemText = .ok t) ↔ d.IsShort := by
  cases d with
  | value v =>
      cases v with
      | null => exact iff_of_true ⟨_, rfl⟩ trivial
      | bool _ => exact exists_map_ok.trans (exists_spell_iff _)
      | int _ => exact exists_map_ok.trans (exists_spell_iff _)
      | real _ => exact iff_of_true ⟨_, rfl⟩ trivial
      | text _ => exact iff_of_true ⟨_, rfl⟩ trivial
  | bytes _ => exact iff_of_true ⟨_, rfl⟩ trivial
  | moment => exact iff_of_true ⟨_, rfl⟩ trivial
  | list _ => exact iff_of_true ⟨_, rfl⟩ trivial
  | set => exact iff_of_true ⟨_, rfl⟩ trivial
  | mapping _ => exact iff_of_true ⟨_, rfl⟩ trivial

theorem exists_texts_iff (d : Data) :
    (∃ ts, d.texts = .ok ts) ↔ ∀ vs, d = .list vs → ∀ v ∈ vs, v.IsShort := by
  have other (noList : ∀ vs, d ≠ .list vs) (found : ∃ ts, d.texts = .ok ts) :
      (∃ ts, d.texts = .ok ts) ↔ ∀ vs, d = .list vs → ∀ v ∈ vs, v.IsShort :=
    iff_of_true found fun vs same => absurd same (noList vs)
  cases d with
  | list vs =>
      simp only [texts, bind_pure_comp, exists_fmap_ok, exists_mapM_ok, exists_itemText_iff,
        list.injEq, forall_eq']
  | value v => exact other (by simp) (by cases v <;> exact ⟨_, rfl⟩)
  | bytes _ => exact other (by simp) ⟨_, rfl⟩
  | moment => exact other (by simp) ⟨_, rfl⟩
  | set => exact other (by simp) ⟨_, rfl⟩
  | mapping _ => exact other (by simp) ⟨_, rfl⟩

theorem exists_text_iff (d : Data) : (∃ t, d.text = .ok t) ↔ d.IsShort := by
  cases d with
  | value v =>
      cases v with
      | null => exact iff_of_true ⟨_, rfl⟩ trivial
      | bool _ => exact iff_of_true ⟨_, rfl⟩ trivial
      | int _ => exact exists_map_ok.trans (exists_spell_iff _)
      | real _ => exact iff_of_true ⟨_, rfl⟩ trivial
      | text _ => exact iff_of_true ⟨_, rfl⟩ trivial
  | bytes _ => exact iff_of_true ⟨_, rfl⟩ trivial
  | moment => exact iff_of_true ⟨_, rfl⟩ trivial
  | list _ => exact iff_of_true ⟨_, rfl⟩ trivial
  | set => exact iff_of_true ⟨_, rfl⟩ trivial
  | mapping _ => exact iff_of_true ⟨_, rfl⟩ trivial

/-- A text is found at a key unless the key holds an integer beyond the digit limit. -/
theorem exists_textAt_iff (d : Data) (key standard : Text) :
    (∃ t, d.textAt key standard = .ok t) ↔ ∀ v, d.get? key = some v → v.IsShort := by
  rw [textAt, bind_pure_comp, exists_fmap_ok, exists_text_iff]
  cases d.get? key with
  | none => exact iff_of_true trivial nofun
  | some v => simp

/-- The same where the key is one of a mapping, or of nothing. -/
theorem exists_textAt_inside_iff (d : Data) (outer key standard : Text) :
    (∃ t, ((d.get? outer).getD .null).textAt key standard = .ok t) ↔
      ∀ v, d.at? [outer, key] = some v → v.IsShort := by
  rw [exists_textAt_iff]
  cases found : d.get? outer with
  | none =>
      refine iff_of_true nofun fun v there => ?_
      rw [at?, found] at there
      cases there
  | some inside => simp [at?, found]

end Data

namespace Settings

open Data

theorem exists_excludedOf_iff (d : Data) : (∃ ts, excludedOf d = .ok ts) ↔
    ∀ vs, d.get? "excluded" = some (.list vs) → ∀ v ∈ vs, v.IsShort := by
  rw [excludedOf]
  cases d.get? "excluded" with
  | none => exact iff_of_true ⟨_, rfl⟩ nofun
  | some value => simpa using exists_texts_iff value

theorem exists_extensionsOf_iff (d : Data) : (∃ ts, extensionsOf d = .ok ts) ↔
    ∀ vs, d.get? "extensions" = some (.list vs) → ∀ v ∈ vs, v.IsShort := by
  rw [extensionsOf, bind_pure_comp, exists_fmap_ok]
  cases d.get? "extensions" with
  | none => exact iff_of_true ⟨_, rfl⟩ nofun
  | some value => simpa using exists_texts_iff value

/-- Data give settings exactly when no integer beyond the digit limit is asked for its text. -/
theorem exists_ofData_iff (d : Data) : (∃ s, ofData d = .ok s) ↔ d.AsksShort := by
  have marker := d.exists_textAt_iff "description_marker" standard.marker
  have framework : (∃ f, frameworkOf d = .ok f) ↔
      (∀ v, d.at? ["framework", "factory"] = some v → v.IsShort) ∧
        ∀ v, d.at? ["framework", "router_factory"] = some v → v.IsShort := by
    simp only [frameworkOf, bind_pure_comp, exists_bind_ok, exists_fmap_ok, exists_and_right,
      exists_textAt_inside_iff]
  have output : (∃ f, outputOf d = .ok f) ↔
      (∀ v, d.at? ["output", "json"] = some v → v.IsShort) ∧
        ∀ v, d.at? ["output", "html"] = some v → v.IsShort := by
    simp only [outputOf, bind_pure_comp, exists_bind_ok, exists_fmap_ok, exists_and_right,
      exists_textAt_inside_iff]
  have all : (∃ s, ofData d = .ok s) ↔
      (∃ ts, excludedOf d = .ok ts) ∧ (∃ ts, extensionsOf d = .ok ts) ∧
        (∃ f, frameworkOf d = .ok f) ∧
        (∃ t, d.textAt "description_marker" standard.marker = .ok t) ∧
        ∃ f, outputOf d = .ok f := by
    simp only [ofData, bind_pure_comp, exists_bind_ok, exists_fmap_ok, exists_and_right]
  rw [all, exists_excludedOf_iff, exists_extensionsOf_iff, framework, marker, output]
  constructor
  · rintro ⟨excluded, extensions, ⟨factory, router⟩, marker, json, html⟩
    have single : d.at? ["description_marker"] = d.get? "description_marker" := by
      simp [at?]
    refine ⟨?_, by simpa [listKeys] using ⟨excluded, extensions⟩⟩
    simpa [textKeys, single] using ⟨factory, router, marker, json, html⟩
  · rintro ⟨single, items⟩
    refine ⟨items _ (by decide), items _ (by decide), ⟨?_, ?_⟩, fun v there => ?_, ?_, ?_⟩
    · exact single _ (by decide)
    · exact single _ (by decide)
    · exact single ["description_marker"] (by decide) v (by rw [at?, there]; rfl)
    · exact single _ (by decide)
    · exact single _ (by decide)

end Settings

end RouteAtlas
