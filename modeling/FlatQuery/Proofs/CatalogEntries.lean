import FlatQuery.Catalog.File
import FlatQuery.Proofs.KeyOrder
import FlatQuery.Proofs.LongestPath
import FlatQuery.Proofs.Outcome

/-!
# Entries of catalog files

A catalog stores what its file says as it is written, but is asked about fields without their
operators and about zip codes without the blank characters around them. An entry is found again
under its own key exactly if that key is asked for as it is, or if the same entry stands under the
key that is asked for instead (`lookups_of_ofText`).
-/

namespace FlatQuery

/-! ## Files -/

namespace Json.Tree

variable {α : Type}

theorem ascending_of_dict? {f : Tree → Option α} {t : Tree} {d : Dict α}
    (h : t.dict? f = some d) : Dict.Ascending d := by
  cases t with
  | obj members =>
    obtain ⟨entries, -, rfl⟩ := Option.map_eq_some_iff.1 h
    exact Dict.ascending_ofList entries
  | _ => cases h

theorem ascending_of_orDefault? {f : Tree → Option α} {field : Option Tree} {d : Dict α}
    (h : orDefault? [] (·.dict? f) field = some d) : Dict.Ascending d := by
  cases field with
  | none =>
    obtain rfl := Option.some.inj h
    exact List.Pairwise.nil
  | some t => exact ascending_of_dict? h

end Json.Tree

namespace Catalog

/-- No key of a file is repeated. -/
theorem ascending_of_readFile? {t : Json.Tree} {file : File} (h : readFile? t = some file) :
    Dict.Ascending file.kinds ∧ Dict.Ascending file.locations := by
  obtain ⟨fields, -, h⟩ := Option.bind_eq_some_iff.1 h
  split at h
  · obtain ⟨kinds, hkinds, h⟩ := Option.bind_eq_some_iff.1 h
    obtain ⟨nested, -, h⟩ := Option.bind_eq_some_iff.1 h
    obtain ⟨locations, hlocations, h⟩ := Option.bind_eq_some_iff.1 h
    obtain ⟨locationField, -, h⟩ := Option.bind_eq_some_iff.1 h
    obtain rfl := Option.some.inj h
    exact ⟨Json.Tree.ascending_of_orDefault? hkinds, Json.Tree.ascending_of_orDefault? hlocations⟩
  · cases h

theorem File.ascending_of_ofText? {text : String} {file : File}
    (h : File.ofText? text = some file) :
    Dict.Ascending file.kinds ∧ Dict.Ascending file.locations := by
  unfold File.ofText? at h
  dsimp only at h
  split at h
  · exact ascending_of_readFile? h
  · cases h

/-- The file declares the field to be of the kind. -/
def File.Declares (file : File) (field : String) (kind : FieldKind) : Prop :=
  ∃ word, (field, word) ∈ file.kinds ∧ FieldKind.ofWord? word = some kind

/-! ## Kinds -/

theorem find?_readKinds {entries : Dict String} {kinds : Dict FieldKind}
    (h : readKinds entries = .ok kinds) (field : String) :
    Dict.find? kinds field = (Dict.find? entries field).bind FieldKind.ofWord? := by
  induction entries generalizing kinds with
  | nil =>
    obtain rfl := Except.ok.inj h
    rfl
  | cons entry entries ih =>
    obtain ⟨key, word⟩ := entry
    unfold readKinds at h
    split at h
    · cases h
    · rename_i kind hkind
      obtain ⟨rest, hrest, rfl⟩ := map_eq_ok_iff.1 h
      rw [Dict.find?_cons, Dict.find?_cons, ih hrest]
      split
      · rw [Option.bind_some, hkind]
      · rfl

/-- Every word of a file that can be used is that of a kind. -/
theorem exists_kind_of_readKinds {entries : Dict String} {kinds : Dict FieldKind}
    (h : readKinds entries = .ok kinds) :
    ∀ entry ∈ entries, ∃ kind, FieldKind.ofWord? entry.2 = some kind := by
  induction entries generalizing kinds with
  | nil => simp
  | cons entry entries ih =>
    unfold readKinds at h
    split at h
    · cases h
    · rename_i kind hkind
      obtain ⟨rest, hrest, -⟩ := map_eq_ok_iff.1 h
      exact List.forall_mem_cons.2 ⟨⟨kind, hkind⟩, ih hrest⟩

/-- A usable file, part by part. -/
theorem ofFile_eq_ok {file : File} {c : Catalog} (h : ofFile file = .ok c) :
    readKinds file.kinds = .ok c.kinds ∧ NestedPaths.ofList? file.nested = .ok c.nested ∧
      c.locations = file.locations := by
  obtain ⟨kinds, hkinds, h⟩ := bind_eq_ok_iff.1 h
  obtain ⟨nested, hnested, h⟩ := bind_eq_ok_iff.1 h
  obtain rfl := Except.ok.inj h
  exact ⟨hkinds, hnested, rfl⟩

theorem declaredKind?_eq_some_iff {file : File} (hasc : Dict.Ascending file.kinds) {c : Catalog}
    (h : readKinds file.kinds = .ok c.kinds) {field : String} {kind : FieldKind} :
    c.declaredKind? field = some kind ↔ file.Declares (baseField field) kind := by
  rw [declaredKind?, find?_readKinds h, Option.bind_eq_some_iff]
  simp only [hasc.find?_eq_some_iff]
  rfl

/-! ## Nested paths -/

/-- A nested path owns itself unless an operator is left out of it. -/
theorem nestedPath?_self_iff {c : Catalog} {path : String} (h : path ∈ c.nested.paths) :
    c.nestedPath? path = some path ↔ baseField path = path := by
  rw [nestedPath?, NestedPaths.resolve?_eq_some_iff]
  constructor
  · rintro ⟨-, hscope, -⟩
    rcases hscope with heq | hstarts
    · exact heq
    · -- the path would be longer than itself
      have hlonger := (hstarts.trans (starts_baseField path)).length_le
      rw [List.length_append, List.length_singleton] at hlonger
      omega
  · intro hbase
    rw [hbase]
    refine ⟨h, Or.inl rfl, fun other _ hscope => ?_⟩
    rcases hscope with heq | hstarts
    · rw [heq]
    · have hshorter := hstarts.length_le
      rw [List.length_append, List.length_singleton, String.length_toList, String.length_toList]
        at hshorter
      omega

/-! ## Entries -/

/-- Every entry of a file that is accepted is of some kind, and is found again under its own key
exactly in these cases: a field if it carries no operator, or if without the operator it is declared
to be of the same kind; a nested path if it carries no operator; a zip code if there are no blank
characters at its ends, or if without them it stands for the same point. -/
theorem lookups_of_ofText {name text : String} {c : Catalog} (h : ofText name text = .ok c) :
    ∃ file, File.ofText? text = some file ∧
      (∀ field word, (field, word) ∈ file.kinds → ∃ kind, FieldKind.ofWord? word = some kind ∧
        (c.declaredKind? field = some kind ↔
          baseField field = field ∨ file.Declares (baseField field) kind)) ∧
      (∀ path ∈ file.nested, c.nestedPath? path = some path ↔ baseField path = path) ∧
      ∀ zip point, (zip, point) ∈ file.locations → (c.location? zip = some point ↔
        Text.trim zip = zip ∨ (Text.trim zip, point) ∈ file.locations) := by
  unfold ofText at h
  split at h
  · cases h
  · rename_i file hfile
    obtain ⟨hkinds, hnested, hlocations⟩ := ofFile_eq_ok h
    obtain ⟨hasckinds, hasclocations⟩ := File.ascending_of_ofText? hfile
    refine ⟨file, hfile, ?_, ?_, ?_⟩
    · intro field word hentry
      obtain ⟨kind, hkind⟩ := exists_kind_of_readKinds hkinds (field, word) hentry
      have hdeclared : file.Declares field kind := ⟨word, hentry, hkind⟩
      refine ⟨kind, hkind, ?_⟩
      rw [declaredKind?_eq_some_iff hasckinds hkinds]
      refine ⟨Or.inr, fun h => h.elim (fun hbase => ?_) id⟩
      rwa [hbase]
    · intro path hpath
      apply nestedPath?_self_iff
      rwa [NestedPaths.paths_of_ofList? hnested, NestedPaths.mem_sort]
    · intro zip point hentry
      rw [location?, hlocations, hasclocations.find?_eq_some_iff]
      refine ⟨Or.inr, fun h => h.elim (fun htrim => ?_) id⟩
      rwa [htrim]

/-- A file in which keys carry operators and blank characters. -/
def suffixedText : String :=
  "\x7b\"field_types\":\x7b\"size\":\"float\",\"size__ne\":\"float\",\"state__not\":\"name\"\x7d," ++
    "\"nested\":[\"programs\",\"programs__not\"]," ++
    "\"locations\":\x7b\" 94103\":\x7b\"lat\":37,\"lon\":-122\x7d,\"02138\":[42,-71]\x7d\x7d"

def suffixedFile : File where
  kinds := [("size", "float"), ("size__ne", "float"), ("state__not", "name")]
  nested := ["programs", "programs__not"]
  locations := [
    (" 94103", ⟨Number.toDouble (.int 37), Number.toDouble (.int (-122))⟩),
    ("02138", ⟨Number.toDouble (.int 42), Number.toDouble (.int (-71))⟩)]
  locationField := none

def suffixedCatalog : Catalog where
  kinds := [("size", .float), ("size__ne", .float), ("state__not", .name)]
  nested := ⟨["programs", "programs__not"], by decide⟩
  locations := suffixedFile.locations

theorem ofText?_suffixedText : File.ofText? suffixedText = some suffixedFile := by
  decide +kernel

theorem ofText_suffixedText : ofText "catalog.json" suffixedText = .ok suffixedCatalog := by
  rw [ofText, ofText?_suffixedText]
  rfl

/-- An operator in a key does no harm where the field is of the same kind without it. -/
theorem lookups_of_suffixedText :
    ofText "catalog.json" suffixedText = .ok suffixedCatalog ∧
      suffixedCatalog.declaredKind? "size" = some .float ∧
      suffixedCatalog.declaredKind? "size__ne" = some .float ∧
      suffixedCatalog.nestedPath? "programs" = some "programs" ∧
      ∃ point, ("02138", point) ∈ suffixedFile.locations ∧
        suffixedCatalog.location? "02138" = some point := by
  obtain ⟨file, hfile, hkinds, hnested, hlocations⟩ := lookups_of_ofText ofText_suffixedText
  obtain rfl := Option.some.inj (ofText?_suffixedText.symm.trans hfile)
  obtain ⟨kind, hword, hsize⟩ := hkinds "size" "float" (by decide)
  obtain ⟨kind', hword', hsuffixed⟩ := hkinds "size__ne" "float" (by decide)
  have hfloat : FieldKind.ofWord? "float" = some .float := by decide
  obtain rfl := Option.some.inj (hfloat.symm.trans hword)
  obtain rfl := Option.some.inj (hfloat.symm.trans hword')
  have hzip : ("02138", _) ∈ suffixedFile.locations := List.mem_cons_of_mem _ List.mem_cons_self
  refine ⟨ofText_suffixedText, hsize.2 (Or.inl (by decide)), hsuffixed.2 (Or.inr ?_),
    (hnested "programs" (by decide)).2 (by decide), _, hzip,
    (hlocations _ _ hzip).2 (Or.inl (by decide))⟩
  exact ⟨"float", by decide, hfloat⟩

/-- Without its operator or its blank characters a key may be unknown, or may name another entry. -/
theorem not_found_suffixed :
    ofText "catalog.json" suffixedText = .ok suffixedCatalog ∧
      File.ofText? suffixedText = some suffixedFile ∧
      (("state__not", "name") ∈ suffixedFile.kinds ∧
        suffixedCatalog.declaredKind? "state__not" = none) ∧
      ("programs__not" ∈ suffixedFile.nested ∧
        suffixedCatalog.nestedPath? "programs__not" = some "programs") ∧
      ∃ point, (" 94103", point) ∈ suffixedFile.locations ∧
        suffixedCatalog.location? " 94103" = none :=
  ⟨ofText_suffixedText, ofText?_suffixedText, ⟨by decide, by decide⟩, ⟨by decide, by decide⟩,
    _, List.mem_cons_self, by decide⟩

end Catalog

end FlatQuery
