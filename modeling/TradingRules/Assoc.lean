/-!
# `Assoc` — lists of keys and values

A list of pairs keeps its keys in the order in which they came. Inserting replaces the value of a key that is
there already and puts a new key at the end; looking up is `List.lookup`.
-/

namespace TradingRules.Assoc

variable {κ α : Type} [DecidableEq κ]

/-- Puts a value under a key: in place of the value that is there, or at the end. -/
def insert (entries : List (κ × α)) (key : κ) (value : α) : List (κ × α) :=
  match entries with
  | [] => [(key, value)]
  | (k, v) :: rest => if k = key then (key, value) :: rest else (k, v) :: insert rest key value

@[simp] theorem lookup_insert_self (entries : List (κ × α)) (key : κ) (value : α) :
    (insert entries key value).lookup key = some value := by
  induction entries with
  | nil => simp [insert]
  | cons entry rest ih =>
    obtain ⟨k, v⟩ := entry
    by_cases h : k = key
    · simp [insert, h]
    · have h' : (key == k) = false := by simpa using fun e => h e.symm
      simp [insert, h, List.lookup_cons, h', ih]

theorem lookup_insert_of_ne {entries : List (κ × α)} {key other : κ} {value : α} (h : other ≠ key) :
    (insert entries key value).lookup other = entries.lookup other := by
  induction entries with
  | nil =>
    have h' : (other == key) = false := by simpa using h
    simp [insert, List.lookup_cons, h']
  | cons entry rest ih =>
    obtain ⟨k, v⟩ := entry
    by_cases hk : k = key
    · subst hk
      have h' : (other == k) = false := by simpa using h
      simp [insert, List.lookup_cons, h']
    · simp [insert, hk, List.lookup_cons, ih]

/-- What stands under another key does not matter to a look-up. -/
theorem lookup_cons_of_ne {key other : κ} (hkey : other ≠ key) (value : α) (entries : List (κ × α)) :
    ((other, value) :: entries).lookup key = entries.lookup key := by
  have hne : (key == other) = false := by
    rw [beq_eq_false_iff_ne]
    exact hkey.symm
  rw [List.lookup_cons, hne]

/-- Putting a value where it stands already changes nothing. -/
theorem insert_of_lookup {entries : List (κ × α)} {key : κ} {value : α} (h : entries.lookup key = some value) :
    insert entries key value = entries := by
  induction entries with
  | nil => cases h
  | cons entry entries ih =>
      obtain ⟨other, value'⟩ := entry
      rw [insert]
      by_cases hkey : other = key
      · subst hkey
        rw [List.lookup_cons_self, Option.some.injEq] at h
        rw [if_pos rfl, h]
      · rw [lookup_cons_of_ne hkey] at h
        rw [if_neg hkey, ih h]

/-- A key that is there already keeps its place, a new one comes last. -/
theorem keys_insert (entries : List (κ × α)) (key : κ) (value : α) :
    (insert entries key value).map Prod.fst =
      if key ∈ entries.map Prod.fst then entries.map Prod.fst else entries.map Prod.fst ++ [key] := by
  induction entries with
  | nil => simp [insert]
  | cons entry rest ih =>
    obtain ⟨k, v⟩ := entry
    by_cases h : k = key
    · simp [insert, h]
    · have h' : key ≠ k := fun e => h e.symm
      rw [insert, if_neg h, List.map_cons, ih]
      by_cases hmem : key ∈ rest.map Prod.fst
      · rw [if_pos hmem, List.map_cons, if_pos (List.mem_cons_of_mem _ hmem)]
      · rw [if_neg hmem, List.map_cons, if_neg (List.not_mem_cons_of_ne_of_not_mem h' hmem), List.cons_append]

/-- Inserting keeps the keys distinct. -/
theorem nodup_keys_insert {entries : List (κ × α)} (h : (entries.map Prod.fst).Nodup) (key : κ) (value : α) :
    ((insert entries key value).map Prod.fst).Nodup := by
  rw [keys_insert]
  by_cases hmem : key ∈ entries.map Prod.fst
  · rwa [if_pos hmem]
  · rw [if_neg hmem, List.nodup_append]
    refine ⟨h, List.pairwise_singleton _ _, ?_⟩
    intro a ha b hb
    rw [List.mem_singleton.mp hb]
    rintro rfl
    exact hmem ha

/-- Where keys are distinct, looking up finds exactly the entries. -/
theorem lookup_eq_some_iff_mem {entries : List (κ × α)} (h : (entries.map Prod.fst).Nodup) {key : κ} {value : α} :
    entries.lookup key = some value ↔ (key, value) ∈ entries := by
  induction entries with
  | nil => simp
  | cons entry rest ih =>
    obtain ⟨k, v⟩ := entry
    obtain ⟨hfresh, hrest⟩ := List.nodup_cons.mp h
    rw [List.lookup_cons, List.mem_cons]
    by_cases hk : key = k
    · subst hk
      have hnot : (key, value) ∉ rest := fun hmem => hfresh (List.mem_map.mpr ⟨_, hmem, rfl⟩)
      simp [hnot, eq_comm]
    · have hk' : (key == k) = false := by simpa using hk
      simp [hk, hk', ih hrest]

end TradingRules.Assoc
