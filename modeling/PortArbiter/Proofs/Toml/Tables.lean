import PortArbiter.Toml.Document
import Mathlib.Data.List.Basic
/-!
# Tables built by statements

What a document amounts to when each of its keys is given once: first the entries of the document
itself, then the items of one array after another, each with the entries that follow its header.
-/

namespace PortArbiter.Toml

namespace Entries

def assigns (es : Entries) : List Statement :=
  es.map fun e => .assign [e.1] e.2

theorem assigns_append (es more : Entries) :
    (es ++ more : Entries).assigns = es.assigns ++ more.assigns :=
  List.map_append

def items (key : String) (records : List Entries) : List Statement :=
  records.flatMap fun es => .openItem [key] :: es.assigns

def headed (key : String) (records : List Entries) : Entries :=
  if records.isEmpty then [] else [(key, .array true (records.map (.table .header)))]

theorem lookup_last {es : Entries} {key : String} (h : es.lookup key = none) (v : Value) :
    (es ++ [(key, v)]).lookup key = some v := by
  rw [List.lookup_append, h, Option.none_or, List.lookup_cons_self]

theorem replace_last {es : Entries} {key : String} (h : es.lookup key = none) (v w : Value) :
    (es ++ [(key, v)] : Entries).replace key w = es ++ [(key, w)] := by
  have hother : ∀ e ∈ es, (if e.1 = key then (key, w) else e) = e := by
    intro e he
    have hne := List.lookup_eq_none_iff.1 h e he
    rw [if_neg]
    rintro rfl
    simp at hne
  rw [replace, List.map_append, List.map_congr_left hother, List.map_id', List.map_singleton,
    if_pos rfl]

theorem lookup_eq_none_of_nodup {es more : Entries} {key : String} {v : Value}
    (h : ((es ++ (key, v) :: more).map Prod.fst).Nodup) : es.lookup key = none := by
  rw [List.lookup_eq_none_iff]
  intro e he
  rw [List.map_append, List.nodup_append] at h
  have hne := h.2.2 e.1 (List.mem_map_of_mem he) key List.mem_cons_self
  simpa using hne.symm

theorem assign?_key {es : Entries} {key : String} (h : es.lookup key = none) (v : Value)
    (origin : Origin) : es.assign? [key] v origin = some (es ++ [(key, v)]) := by
  have hadd : es.add? key v = some (es ++ [(key, v)]) := by
    rw [add?, h]
    rfl
  simp only [assign?, List.getLast?_singleton, List.dropLast_singleton, List.isEmpty_nil, true_or,
    if_true, changeAt, hadd]

theorem changeUnder_item {es : Entries} {key : String} (h : es.lookup key = none)
    (before : List Value) {inner after : Entries} {change : Origin → Entries → Option Entries}
    (hchange : change .header inner = some after) :
    (es ++ [(key, .array true (before ++ [.table .header inner]))] : Entries).changeUnder change
        [key] = some (es ++ [(key, .array true (before ++ [.table .header after]))]) := by
  simp only [changeUnder, changeAt, lookup_last h, List.getLast?_concat, hchange,
    Option.bind_eq_bind, Option.bind_some, List.dropLast_concat, replace_last h]

theorem openItem?_first {es : Entries} {key : String} (h : es.lookup key = none) :
    es.openItem? [key] = some (es ++ [(key, .array true [.table .header []])]) := by
  simp only [openItem?, List.getLast?_singleton, List.dropLast_singleton, changeUnder, changeAt, h]

theorem openItem?_next {es : Entries} {key : String} (h : es.lookup key = none)
    (before : List Value) :
    (es ++ [(key, .array true before)] : Entries).openItem? [key] =
      some (es ++ [(key, .array true (before ++ [.table .header []]))]) := by
  simp only [openItem?, List.getLast?_singleton, List.dropLast_singleton, changeUnder, changeAt,
    lookup_last h, replace_last h]

end Entries

namespace Draft

open Entries

/-- The entries that the next statements belong to, as `place` puts them into a draft, grow by what
is given to new keys. -/
theorem foldlM_assigns {place : Entries → Draft}
    (hplace : ∀ {es : Entries} {key : String} (v : Value), es.lookup key = none →
      (place es).step? (.assign [key] v) = some (place (es ++ [(key, v)])))
    {es more : Entries} (h : ((es ++ more).map Prod.fst).Nodup) :
    more.assigns.foldlM step? (place es) = some (place (es ++ more)) := by
  induction more generalizing es with
  | nil =>
      rw [List.append_nil]
      rfl
  | cons e more ih =>
      obtain ⟨key, v⟩ := e
      have hstep := hplace v (lookup_eq_none_of_nodup h)
      rw [List.append_cons] at h
      rw [assigns, List.map_cons, List.foldlM_cons, hstep, List.append_cons es (key, v) more]
      exact ih h

theorem step?_entry {es : Entries} {key : String} (v : Value) (h : es.lookup key = none) :
    step? ⟨es, []⟩ (.assign [key] v) = some ⟨es ++ [(key, v)], []⟩ := by
  simp only [step?, changeUnder, changeAt, assign?_key h, Option.bind_eq_bind, Option.bind_some]

section Items

variable {es : Entries} {key : String}

theorem step?_field (hkey : es.lookup key = none) (before : List Value) {inner : Entries}
    {field : String} (v : Value) (h : inner.lookup field = none) :
    step? ⟨es ++ [(key, .array true (before ++ [.table .header inner]))], [key]⟩
        (.assign [field] v) =
      some ⟨es ++ [(key, .array true (before ++ [.table .header (inner ++ [(field, v)])]))],
        [key]⟩ := by
  simp only [step?, changeUnder_item hkey before (assign?_key h v .header), Option.bind_eq_bind,
    Option.bind_some]

theorem foldlM_item (hkey : es.lookup key = none) (before : List Value) {record : Entries}
    (h : (record.map Prod.fst).Nodup) {d : Draft}
    (hopen : d.entries.openItem? [key] =
      some (es ++ [(key, .array true (before ++ [.table .header []]))])) :
    (.openItem [key] :: record.assigns).foldlM step? d =
      some ⟨es ++ [(key, .array true (before ++ [.table .header record]))], [key]⟩ := by
  have hstep : d.step? (.openItem [key]) =
      some ⟨es ++ [(key, .array true (before ++ [.table .header []]))], [key]⟩ := by
    simp only [step?, hopen, Option.bind_eq_bind, Option.bind_some]
  rw [List.foldlM_cons, hstep]
  exact foldlM_assigns (fun v hv => step?_field hkey before v hv) h

theorem foldlM_next (hkey : es.lookup key = none) (before : List Value) (header : List String)
    {records : List Entries} (h : ∀ r ∈ records, (r.map Prod.fst).Nodup) :
    ∃ last, (items key records).foldlM step? ⟨es ++ [(key, .array true before)], header⟩ =
      some ⟨es ++ [(key, .array true (before ++ records.map (.table .header)))], last⟩ := by
  induction records generalizing before header with
  | nil =>
      rw [List.map_nil, List.append_nil]
      exact ⟨header, rfl⟩
  | cons record records ih =>
      obtain ⟨hrecord, hrecords⟩ := List.forall_mem_cons.1 h
      have hitem := foldlM_item hkey before hrecord (d := ⟨_, header⟩) (openItem?_next hkey before)
      obtain ⟨last, hlast⟩ := ih (before ++ [.table .header record]) [key] hrecords
      rw [List.append_assoc, List.singleton_append] at hlast
      refine ⟨last, ?_⟩
      rw [items, List.flatMap_cons, List.foldlM_append, hitem]
      exact hlast

theorem foldlM_items {records : List Entries} (hkey : records ≠ [] → es.lookup key = none)
    (header : List String) (h : ∀ r ∈ records, (r.map Prod.fst).Nodup) :
    ∃ last, (items key records).foldlM step? ⟨es, header⟩ =
      some ⟨es ++ headed key records, last⟩ := by
  cases records with
  | nil =>
      rw [headed, List.isEmpty_nil, if_pos rfl, List.append_nil]
      exact ⟨header, rfl⟩
  | cons record records =>
      obtain ⟨hrecord, hrecords⟩ := List.forall_mem_cons.1 h
      have hkey := hkey (List.cons_ne_nil _ _)
      have hitem := foldlM_item hkey [] hrecord (d := ⟨es, header⟩) (openItem?_first hkey)
      obtain ⟨last, hlast⟩ := foldlM_next hkey [.table .header record] [key] hrecords
      refine ⟨last, ?_⟩
      rw [items, List.flatMap_cons, List.foldlM_append, hitem]
      exact hlast

end Items

end Draft

end PortArbiter.Toml
