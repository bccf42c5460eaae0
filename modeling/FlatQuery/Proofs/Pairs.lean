import FlatQuery.Proofs.FirstPlaces
import FlatQuery.Proofs.Outcome
import FlatQuery.Request.Basic

/-!
# Pairs of a request

The pairs that set options and the pairs that are fields are read apart from each other
(`foldlM_add`). The fields are put together by `gather`: each key once, with all its texts. Of the
texts of an option the last one stays (`Options.Reads`). So a request does not depend on how the two
kinds of pairs are mixed (`ofPairs_collects`).
-/

namespace FlatQuery

/-! ## Kinds of pairs -/

/-- The options that a request can set. -/
def optionNames : List String :=
  ["page", "per_page", "fields", "sort", "command", "metrics", "zip", "distance", "all_programs",
    "all_programs_nested", "keys_nested", "debug", "nested_sort_mode"]

/-- The option that a key names, with or without an underscore before it. -/
def optionOf? (key : String) : Option String :=
  optionNames.find? fun name => key = name ∨ key = "_" ++ name

def optionPairs (pairs : List (String × String)) : List (String × String) :=
  pairs.filter fun pair => (optionOf? pair.1).isSome

def fieldPairs (pairs : List (String × String)) : List (String × String) :=
  pairs.filter fun pair => pair.1 ≠ "" ∧ optionOf? pair.1 = none

theorem optionName_eq_iff {key name : String} (h : name ∈ optionNames) :
    optionName key = name ↔ key = name ∨ key = "_" ++ name := by
  have hname : name.toList.head? ≠ some '_' :=
    (by decide : ∀ name ∈ optionNames, name.toList.head? ≠ some '_') name h
  have hkey : key = "_" ++ name ↔ key.toList = '_' :: name.toList := by
    rw [← String.toList_inj, String.toList_append]
    exact Iff.rfl
  rw [optionName, hkey]
  split
  · rename_i cs hcs
    have hne : key ≠ name := by
      rintro rfl
      exact hname (by rw [hcs, List.head?_cons])
    rw [hcs, or_iff_right hne, List.cons.injEq, ← String.toList_inj, String.toList_ofList]
    simp
  · rename_i hcs
    rw [or_iff_left (hcs name.toList)]

theorem optionOf?_empty : optionOf? "" = none := by decide

theorem optionOf?_eq_some {key name : String} (h : optionOf? key = some name) :
    name ∈ optionNames ∧ optionName key = name := by
  have hmem := List.mem_of_find?_eq_some h
  exact ⟨hmem, (optionName_eq_iff hmem).2 (by simpa using List.find?_some h)⟩

theorem optionOf?_eq_none {key : String} (h : optionOf? key = none) :
    optionName key ∉ optionNames := by
  intro hmem
  have hnone := List.find?_eq_none.1 h _ hmem
  exact hnone (decide_eq_true ((optionName_eq_iff hmem).1 rfl))

theorem isSome_set?_iff {o : Options} {name text : String} :
    (o.set? name text).isSome ↔ name ∈ optionNames := by
  unfold Options.set?
  split
  case h_14 => simp_all [optionNames]
  all_goals exact iff_of_true rfl (by decide)

/-! ## Two passes -/

namespace Options

/-- The options after one more pair, which may name one of them. -/
def set (o : Options) (pair : String × String) : Except Rejection Options :=
  (o.set? (optionName pair.1) pair.2).getD (.ok o)

variable {o : Options} {pair : String × String}

theorem set?_of_option {name : String} (h : optionOf? pair.1 = some name) :
    o.set? (optionName pair.1) pair.2 = some (o.set pair) := by
  obtain ⟨hmem, rfl⟩ := optionOf?_eq_some h
  obtain ⟨outcome, hset⟩ := Option.isSome_iff_exists.1 (isSome_set?_iff.2 hmem)
  rw [set, hset, Option.getD_some]

theorem set?_of_field (h : optionOf? pair.1 = none) :
    o.set? (optionName pair.1) pair.2 = none := by
  rw [← Option.not_isSome_iff_eq_none, isSome_set?_iff]
  exact optionOf?_eq_none h

end Options

namespace Request

theorem add_of_option {r : Request} {pair : String × String} {name : String}
    (h : optionOf? pair.1 = some name) :
    r.add pair.1 pair.2 = (r.options.set pair).map fun o => { r with options := o } := by
  have hkey : ¬pair.1.isEmpty = true := by
    rw [String.isEmpty_iff]
    intro hempty
    rw [hempty, optionOf?_empty] at h
    cases h
  rw [add, if_neg hkey, Options.set?_of_option h]

theorem add_of_field {r : Request} {pair : String × String} (hne : pair.1 ≠ "")
    (h : optionOf? pair.1 = none) :
    r.add pair.1 pair.2 = .ok { r with params := addParam pair.1 pair.2 r.params } := by
  rw [add, if_neg (by rwa [String.isEmpty_iff]), Options.set?_of_field h]

/-- The options of a request depend on its option pairs only, and its parameters on its fields. -/
theorem foldlM_add (pairs : List (String × String)) (r : Request) :
    pairs.foldlM (fun r (pair : String × String) => r.add pair.1 pair.2) r =
      ((optionPairs pairs).foldlM Options.set r.options).map fun o =>
        { params := (fieldPairs pairs).foldl (fun ps pair => addParam pair.1 pair.2 ps) r.params
          options := o } := by
  induction pairs generalizing r with
  | nil => rfl
  | cons pair pairs ih =>
    rw [List.foldlM_cons]
    cases hoption : optionOf? pair.1 with
    | some name =>
      have hset : optionPairs (pair :: pairs) = pair :: optionPairs pairs :=
        List.filter_cons_of_pos (by rw [hoption]; rfl)
      have hskip : fieldPairs (pair :: pairs) = fieldPairs pairs :=
        List.filter_cons_of_neg (by simp [hoption])
      rw [add_of_option hoption, hset, hskip, List.foldlM_cons]
      cases r.options.set pair with
      | error e => rfl
      | ok o => exact ih { r with options := o }
    | none =>
      have hskip : optionPairs (pair :: pairs) = optionPairs pairs :=
        List.filter_cons_of_neg (by simp [hoption])
      rw [hskip]
      by_cases hne : pair.1 = ""
      · have hempty : fieldPairs (pair :: pairs) = fieldPairs pairs :=
          List.filter_cons_of_neg (by simp [hne])
        have hadd : r.add pair.1 pair.2 = .ok r := by rw [hne]; rfl
        rw [hadd, hempty]
        exact ih r
      · have hfield : fieldPairs (pair :: pairs) = pair :: fieldPairs pairs :=
          List.filter_cons_of_pos (by simp [hne, hoption])
        rw [add_of_field hne hoption, hfield]
        exact ih { r with params := addParam pair.1 pair.2 r.params }

end Request

/-! ## Fields -/

/-- The texts that stand under a key. -/
def textsOf (key : String) (pairs : List (String × String)) : List String :=
  (pairs.filter fun pair => pair.1 = key).map Prod.snd

/-- A text given once stands by itself, and texts given more than once form a list. -/
def ParamValue.ofTexts : List String → ParamValue
  | [text] => .single text
  | texts => .list texts

theorem ParamValue.push_ofTexts {texts : List String} (h : texts ≠ []) (text : String) :
    (ofTexts texts).push text = ofTexts (texts ++ [text]) := by
  match texts, h with
  | [first], _ => rfl
  | first :: second :: texts, _ => rfl

/-- Each key once, in the order in which they came first, with all its texts. -/
def gather (pairs : List (String × String)) : List Param :=
  (pairs.map Prod.fst).eraseDups.map fun key => ⟨key, .ofTexts (textsOf key pairs)⟩

/-- A text is put to the key that it is under; a new key comes after the others. -/
theorem addParam_map {keys : List String} (hnodup : keys.Nodup) (value : String → ParamValue)
    (path text : String) :
    addParam path text (keys.map fun key => ⟨key, value key⟩) =
      (keys.map fun key => ⟨key, if key = path then (value key).push text else value key⟩) ++
        if path ∈ keys then [] else [⟨path, .single text⟩] := by
  induction keys with
  | nil => rfl
  | cons key keys ih =>
    rw [List.nodup_cons] at hnodup
    rw [List.map_cons, addParam]
    by_cases hkey : key = path
    · have hrest : (keys.map fun k =>
          Param.mk k (if k = path then (value k).push text else value k)) =
          keys.map fun k => ⟨k, value k⟩ :=
        List.map_congr_left fun k hk => by
          rw [if_neg fun heq => hnodup.1 (by rwa [hkey, ← heq])]
      simp [hkey, hrest]
    · have hmem : path ∈ key :: keys ↔ path ∈ keys := by
        rw [List.mem_cons, or_iff_right (Ne.symm hkey)]
      simp only [if_neg hkey, ih hnodup.2, hmem, List.map_cons, List.cons_append]

theorem textsOf_append (key : String) (pairs more : List (String × String)) :
    textsOf key (pairs ++ more) = textsOf key pairs ++ textsOf key more := by
  rw [textsOf, List.filter_append, List.map_append, textsOf, textsOf]

theorem textsOf_cons_self (key text : String) (pairs : List (String × String)) :
    textsOf key ((key, text) :: pairs) = text :: textsOf key pairs := by
  rw [textsOf, List.filter_cons_of_pos (by simp), List.map_cons, textsOf]

theorem textsOf_cons_of_ne {key other : String} (h : other ≠ key) (text : String)
    (pairs : List (String × String)) :
    textsOf key ((other, text) :: pairs) = textsOf key pairs := by
  rw [textsOf, List.filter_cons_of_neg (by simpa using h), textsOf]

theorem textsOf_append_singleton (key : String) (pairs : List (String × String))
    (pair : String × String) :
    textsOf key (pairs ++ [pair]) = textsOf key pairs ++ if key = pair.1 then [pair.2] else [] := by
  rw [textsOf, List.filter_append, List.map_append, textsOf]
  by_cases h : key = pair.1
  · simp [h]
  · simp [h, Ne.symm h]

theorem textsOf_eq_nil_iff {key : String} {pairs : List (String × String)} :
    textsOf key pairs = [] ↔ key ∉ pairs.map Prod.fst := by
  rw [textsOf, List.map_eq_nil_iff, List.filter_eq_nil_iff, List.mem_map]
  simp only [decide_eq_true_eq, not_exists, not_and]

theorem addParam_gather (pairs : List (String × String)) (pair : String × String) :
    addParam pair.1 pair.2 (gather pairs) = gather (pairs ++ [pair]) := by
  have hold : ∀ key ∈ (pairs.map Prod.fst).eraseDups,
      (if key = pair.1 then (ParamValue.ofTexts (textsOf key pairs)).push pair.2
        else .ofTexts (textsOf key pairs)) = .ofTexts (textsOf key (pairs ++ [pair])) := by
    intro key hkey
    have hne : textsOf key pairs ≠ [] :=
      mt textsOf_eq_nil_iff.1 (not_not_intro (List.mem_eraseDups.1 hkey))
    rw [textsOf_append_singleton]
    split
    · exact ParamValue.push_ofTexts hne pair.2
    · rw [List.append_nil]
  rw [gather, addParam_map (nodup_eraseDups _), gather, List.map_append, List.map_singleton,
    eraseDups_append_singleton, List.map_append,
    List.map_congr_left fun key hkey => congrArg (Param.mk key) (hold key hkey)]
  congr 1
  by_cases hnew : pair.1 ∈ pairs.map Prod.fst
  · rw [if_pos (List.mem_eraseDups.2 hnew), if_pos hnew, List.map_nil]
  · rw [if_neg (mt List.mem_eraseDups.1 hnew), if_neg hnew, List.map_singleton,
      textsOf_append_singleton, textsOf_eq_nil_iff.2 hnew, if_pos rfl]
    rfl

theorem foldl_addParam (pairs : List (String × String)) :
    pairs.foldl (fun ps pair => addParam pair.1 pair.2 ps) [] = gather pairs := by
  induction pairs using List.reverseRecOn with
  | nil => rfl
  | append_singleton pairs pair ih =>
    rw [List.foldl_append, ih]
    exact addParam_gather pairs pair

/-! ## Options -/

/-- A value is read from the last text of its option, or is `absent` without one. -/
def IsRead {α : Type} (read : String → Except Rejection α) (absent value : α) :
    Option String → Prop
  | none => value = absent
  | some text => read text = .ok value

/-- Each option is as its last text has it. -/
structure Options.Reads (o : Options) (last : String → Option String) : Prop where
  page : IsRead (readCount "page") 0 o.page (last "page")
  perPage : IsRead (fun s => (readCount "per_page" s).map some) none o.perPage (last "per_page")
  fields : IsRead (fun s => .ok (commaList s)) [] o.fields (last "fields")
  sort : IsRead (fun s => .ok (some s)) none o.sort (last "sort")
  command : IsRead (fun s => (Command.read (Text.trim s)).map some) none o.command (last "command")
  metrics : IsRead (fun s => .ok (commaList s)) [] o.metrics (last "metrics")
  zip : IsRead (fun s => .ok (some s)) none o.zip (last "zip")
  distance : IsRead (fun s => .ok (some s)) none o.distance (last "distance")
  allPrograms : IsRead (readFlag "all_programs") false o.allPrograms (last "all_programs")
  allProgramsNested : IsRead (readFlag "all_programs_nested") false o.allProgramsNested
    (last "all_programs_nested")
  keysNested : IsRead (readFlag "keys_nested") false o.keysNested (last "keys_nested")
  debug : IsRead (readFlag "debug") false o.debug (last "debug")
  nestedSortMode : IsRead (fun s => (SortMode.read (Text.trim s)).map some) none o.nestedSortMode
    (last "nested_sort_mode")

theorem Options.Reads.set? {o o' : Options} {last : String → Option String} {name text : String}
    (h : o.Reads last) (hset : o.set? name text = some (.ok o')) :
    o'.Reads fun other => if name = other then some text else last other := by
  -- The option that is set has the new text. For any other one the last text is by computation the
  -- one from before, so what was read of it stays.
  unfold Options.set? at hset
  split at hset
  case h_1 =>
    obtain ⟨n, hn, rfl⟩ := map_eq_ok_iff.1 (Option.some.inj hset)
    exact { h with page := hn }
  case h_2 =>
    obtain ⟨n, hn, rfl⟩ := map_eq_ok_iff.1 (Option.some.inj hset)
    exact { h with perPage := map_eq_ok_iff.2 ⟨n, hn, rfl⟩ }
  case h_3 =>
    cases hset
    exact { h with fields := rfl }
  case h_4 =>
    cases hset
    exact { h with sort := rfl }
  case h_5 =>
    obtain ⟨command, hcommand, rfl⟩ := map_eq_ok_iff.1 (Option.some.inj hset)
    exact { h with command := map_eq_ok_iff.2 ⟨command, hcommand, rfl⟩ }
  case h_6 =>
    cases hset
    exact { h with metrics := rfl }
  case h_7 =>
    cases hset
    exact { h with zip := rfl }
  case h_8 =>
    cases hset
    exact { h with distance := rfl }
  case h_9 =>
    obtain ⟨b, hb, rfl⟩ := map_eq_ok_iff.1 (Option.some.inj hset)
    exact { h with allPrograms := hb }
  case h_10 =>
    obtain ⟨b, hb, rfl⟩ := map_eq_ok_iff.1 (Option.some.inj hset)
    exact { h with allProgramsNested := hb }
  case h_11 =>
    obtain ⟨b, hb, rfl⟩ := map_eq_ok_iff.1 (Option.some.inj hset)
    exact { h with keysNested := hb }
  case h_12 =>
    obtain ⟨b, hb, rfl⟩ := map_eq_ok_iff.1 (Option.some.inj hset)
    exact { h with debug := hb }
  case h_13 =>
    obtain ⟨mode, hmode, rfl⟩ := map_eq_ok_iff.1 (Option.some.inj hset)
    exact { h with nestedSortMode := map_eq_ok_iff.2 ⟨mode, hmode, rfl⟩ }
  case h_14 => cases hset

theorem textsOf_fieldPairs {key : String} {pairs : List (String × String)}
    (h : key ∈ (fieldPairs pairs).map Prod.fst) :
    textsOf key (fieldPairs pairs) = textsOf key pairs := by
  obtain ⟨pair, hpair, rfl⟩ := List.mem_map.1 h
  have hfield := (List.mem_filter.1 hpair).2
  rw [textsOf, fieldPairs, List.filter_filter, textsOf]
  congr 2
  funext other
  by_cases heq : other.1 = pair.1
  · rw [heq, hfield, Bool.and_true]
  · rw [decide_eq_false heq, Bool.false_and]

end FlatQuery
