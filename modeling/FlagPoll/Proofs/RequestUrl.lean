import FlagPoll.Headers
import FlagPoll.Proofs.Text.FormUrl
import FlagPoll.Proofs.Text.Split

/-!
# FlagPoll.Proofs.RequestUrl

What the address of a request says.

* `Spells`            — how an address spells a base and the key of a filter.
* `spells_requestUrl` — the address of a configuration spells its settings.
* `Spells.unique`     — an address spells no other base and no other key.
* `Spells.reads`      — as path, query and fragment, it has one parameter if there is a filter.
* `Conveys`           — all of this at once.
-/

namespace FlagPoll.RequestUrl

open Text (before after? afterLast fields)

/-- An address names the whole data set behind a base or, with the key of a filter, a part of it.
The key stands there in a form that it is read back from. -/
inductive Spells (base : List Char) : (key : Option String) → (url : List Char) → Prop where
  | whole : Spells base none (base ++ "/sdk/latest-all".toList)
  | part {key : String} {form : List Char} (hform : FormUrl.IsForm form)
      (hkey : FormUrl.decode? form = some key.toList) :
      Spells base (some key) (base ++ "/sdk/latest-all".toList ++ '?' :: ("filter=".toList ++ form))

theorem spells_requestUrl (c : Config) :
    Spells c.baseUri.toList c.filterKey (requestUrl c).toList := by
  simp only [requestUrl, filterQuery, String.toList_append]
  cases c.filterKey with
  | none =>
    rw [String.toList_empty, List.append_nil]
    exact .whole
  | some key =>
    simp only [String.toList_append, String.toList_ofList]
    exact .part (FormUrl.isForm_encode key.toList) (FormUrl.decode_encode key.toList)

variable {base base' url form : List Char} {key key' : Option String}

/-- Whatever the key is, none of the separators of an address stands in its parameter. -/
theorem not_mem_parameter (h : FormUrl.IsForm form) {d : Char} (hd : d ∈ "/?#&;".toList) :
    d ∉ "filter=".toList ++ form := by
  have hall : "/?#&;".toList.all (fun c =>
      c ∉ "filter=".toList ∧ ¬ (FormUrl.IsPlain c ∨ c = '+' ∨ c = '%')) = true := by
    decide
  obtain ⟨hname, hvalue⟩ := of_decide_eq_true (List.all_eq_true.mp hall d hd)
  rw [List.mem_append, not_or]
  exact ⟨hname, fun hmem => hvalue (h.mem hmem)⟩

/-! ## One base and one key -/

/-- The key that the last segment of an address spells. -/
def keyOf (segment : List Char) : Option (List Char) :=
  (after? '=' segment).bind FormUrl.decode?

/-- The last slash of an address is the one before the name of the data set. -/
theorem Spells.exists_segment (h : Spells base key url) : ∃ segment,
    url = (base ++ "/sdk".toList) ++ '/' :: segment ∧ '/' ∉ segment ∧
      keyOf segment = key.map String.toList := by
  cases h with
  | whole => exact ⟨"latest-all".toList, by simp, by decide, by decide⟩
  | @part key form hform hkey =>
    refine ⟨"latest-all?".toList ++ ("filter=".toList ++ form), by simp, ?_, ?_⟩
    · rw [List.mem_append, not_or]
      exact ⟨by decide, not_mem_parameter hform (by decide)⟩
    · have hafter : after? '=' ("latest-all?filter".toList ++ '=' :: form) = some form :=
        Text.after?_append_cons (by decide) form
      exact (congrArg (·.bind FormUrl.decode?) hafter).trans hkey

theorem Spells.unique (h : Spells base key url) (h' : Spells base' key' url) :
    base = base' ∧ key = key' := by
  obtain ⟨segment, hurl, hslash, hkey⟩ := h.exists_segment
  obtain ⟨segment', hurl', hslash', hkey'⟩ := h'.exists_segment
  have hsegment : segment = segment' := by
    rw [← Text.afterLast_append_cons (base ++ "/sdk".toList) hslash, ← hurl, hurl',
      Text.afterLast_append_cons _ hslash']
  subst hsegment
  constructor
  · rw [hurl] at hurl'
    exact List.append_cancel_right (List.append_cancel_right hurl')
  · rw [hkey] at hkey'
    exact Option.map_injective (fun _ _ => String.toList_inj.mp) hkey'

/-! ## Path, query and fragment -/

/-- An address up to its query or its fragment. -/
def path (url : List Char) : List Char := before '?' (before '#' url)

def fragment? (url : List Char) : Option (List Char) := after? '#' url

/-- The parameters in the query of an address: names, and values as they are decoded. -/
def parameters (url : List Char) : List (List Char × Option (List Char)) :=
  match after? '?' (before '#' url) with
  | none => []
  | some query =>
    (fields '&' query).map fun p => (before '=' p, FormUrl.decode? ((after? '=' p).getD []))

/-- Whatever stands in the base, a key adds no piece at these separators. -/
theorem Spells.length_fields (h : Spells base key url) {d : Char} (hd : d ∈ "/#&;".toList) :
    (fields d url).length = (fields d (base ++ "/sdk/latest-all".toList)).length := by
  cases h with
  | whole => rfl
  | @part key form hform hkey =>
    have hall : "/#&;".toList.all (fun c => c ∈ "/?#&;".toList ∧ c ≠ '?') = true := by decide
    obtain ⟨hmem, hne⟩ := of_decide_eq_true (List.all_eq_true.mp hall d hd)
    have hnone : d ∉ '?' :: ("filter=".toList ++ form) := by
      rw [List.mem_cons, not_or]
      exact ⟨hne, not_mem_parameter hform hmem⟩
    rw [Text.length_fields, Text.length_fields, List.count_append, List.count_eq_zero.mpr hnone,
      Nat.add_zero]

/-- As path, query and fragment, an address has the path of the data set, and no parameter but the
key. -/
structure Reads (base : List Char) (key : Option String) (url : List Char) : Prop where
  path_eq : path url = base ++ "/sdk/latest-all".toList
  fragment_eq : fragment? url = none
  parameters_eq :
    parameters url = (key.map fun k => ("filter".toList, some k.toList)).toList

/-- The key does no more where the base has neither query nor fragment. -/
theorem Spells.reads (h : Spells base key url) (hquery : '?' ∉ base) (hfragment : '#' ∉ base) :
    Reads base key url := by
  have hquery : '?' ∉ base ++ "/sdk/latest-all".toList := by
    rw [List.mem_append, not_or]
    exact ⟨hquery, by decide⟩
  have hfragment : '#' ∉ base ++ "/sdk/latest-all".toList := by
    rw [List.mem_append, not_or]
    exact ⟨hfragment, by decide⟩
  cases h with
  | whole =>
    have hbefore := Text.before_of_not_mem hfragment
    constructor
    · rw [path, hbefore, Text.before_of_not_mem hquery]
    · exact Text.after?_of_not_mem hfragment
    · rw [parameters, hbefore, Text.after?_of_not_mem hquery]
      rfl
  | @part key form hform hkey =>
    have hnone : '#' ∉ base ++ "/sdk/latest-all".toList ++ '?' :: ("filter=".toList ++ form) := by
      rw [List.mem_append, List.mem_cons, not_or, not_or]
      exact ⟨hfragment, by decide, not_mem_parameter hform (by decide)⟩
    have hbefore := Text.before_of_not_mem hnone
    have hfields : fields '&' ("filter=".toList ++ form) = ["filter".toList ++ '=' :: form] :=
      Text.fields_of_not_mem (not_mem_parameter hform (by decide))
    have hname : '=' ∉ "filter".toList := by decide
    constructor
    · rw [path, hbefore, Text.before_append_cons hquery]
    · exact Text.after?_of_not_mem hnone
    · simp only [parameters, hbefore, Text.after?_append_cons hquery, hfields,
        List.map_singleton, Text.before_append_cons hname, Text.after?_append_cons hname,
        Option.getD_some, hkey]
      rfl

/-- An address spells a base and the key of a filter, and nothing that stands in the key is taken
for anything else. -/
structure Conveys (base : List Char) (key : Option String) (url : List Char) : Prop where
  spells : Spells base key url
  unique : ∀ {base' key'}, Spells base' key' url → base' = base ∧ key' = key
  separators : ∀ d ∈ "/#&;".toList,
    (fields d url).length = (fields d (base ++ "/sdk/latest-all".toList)).length
  parts : '?' ∉ base → '#' ∉ base → Reads base key url

theorem Spells.conveys (h : Spells base key url) : Conveys base key url where
  spells := h
  unique h' := h'.unique h
  separators _ := h.length_fields
  parts := h.reads

end FlagPoll.RequestUrl
