import TradingRules.Proofs.Json.Numbers
import TradingRules.Proofs.Json.Strings

/-!
# `Proofs.Json.RoundTrip` — values read back from their text

Whatever a value is written between, compactly or over indented lines, it is read back as itself, if its scalars
are and no object in it has a key twice: `parse_write`. The reader takes from the text what was written of the
value and no more, so values are put together: an item is read up to what sets it apart from the next one, which
does not go on with a number. Every call that is nested in another one has consumed a character, which is why the
reader's fuel is enough.

## Contents
* `Unambiguous` — no object has a key twice;
* `Json.mem_scalars_arr`, `Json.mem_scalars_obj` — scalars of lists and objects;
* `ReadsAt`, `readsAt_arr`, `readsAt_obj` — lists and objects;
* `readsAt_of_unambiguous`, `parse_write` — values and documents.
-/

namespace TradingRules

/-- Under a new key a value is put at the end. -/
theorem Assoc.insert_of_not_mem {κ α : Type} [DecidableEq κ] {entries : List (κ × α)} {key : κ}
    (h : key ∉ entries.map Prod.fst) (value : α) : Assoc.insert entries key value = entries ++ [(key, value)] := by
  induction entries with
  | nil => rfl
  | cons entry entries ih =>
      obtain ⟨other, value'⟩ := entry
      rw [List.map_cons, List.mem_cons, not_or] at h
      obtain ⟨hkey, hrest⟩ := h
      rw [Assoc.insert, if_neg fun heq => hkey heq.symm, ih hrest, List.cons_append]

namespace Json

/-! ## Values -/

/-- No object in a value has a key twice. -/
inductive Unambiguous : Json → Prop
  | null : Unambiguous .null
  | bool (b : Bool) : Unambiguous (.bool b)
  | int (n : Int) : Unambiguous (.int n)
  | float (x : Float) : Unambiguous (.float x)
  | str (s : String) : Unambiguous (.str s)
  | arr {items : List Json} (h : ∀ item ∈ items, Unambiguous item) : Unambiguous (.arr items)
  | obj {fields : List (String × Json)} (hkeys : (fields.map Prod.fst).Nodup)
      (h : ∀ f ∈ fields, Unambiguous f.2) : Unambiguous (.obj fields)

theorem mem_scalars_arr {items : List Json} {item s : Json} (hitem : item ∈ items) (hs : s ∈ item.scalars) :
    s ∈ (Json.arr items).scalars := by
  rw [scalars]
  induction hitem with
  | head => exact List.mem_append_left _ hs
  | tail _ _ ih => exact List.mem_append_right _ ih

theorem mem_scalars_obj {fields : List (String × Json)} {f : String × Json} {s : Json} (hf : f ∈ fields)
    (hs : s ∈ f.2.scalars) : s ∈ (Json.obj fields).scalars := by
  rw [scalars]
  induction hf with
  | head => exact List.mem_append_left _ hs
  | tail _ _ ih => exact List.mem_append_right _ ih

/-! ## What sets values apart -/

/-- The text starts with a value: with no white space or mark of an encoding, and with no closing bracket. -/
def ValueStart (text : List Char) : Prop :=
  ∃ c tail, text = c :: tail ∧ isGap c = false ∧ c ≠ ']' ∧ c ≠ '\x7d' ∧ c ≠ '\ufeff'

theorem skipGap_of_start {text : List Char} (h : ValueStart text) : skipGap text = text := by
  obtain ⟨c, tail, rfl, hgap, -⟩ := h
  unfold skipGap
  rw [List.dropWhile_cons, hgap, if_neg Bool.false_ne_true]

theorem skipGap_newline (level : Nat) (rest : List Char) : skipGap (newline level ++ rest) = skipGap rest := by
  have hnewline : isGap '\n' = true := rfl
  unfold skipGap newline
  rw [List.cons_append, List.dropWhile_cons, if_pos hnewline]
  exact List.dropWhile_append_of_pos fun c hc => by rw [(List.mem_replicate.mp hc).2]; rfl

theorem skipGap_opening (spacing : Spacing) (level : Nat) (rest : List Char) :
    skipGap (spacing.opening level ++ rest) = skipGap rest := by
  cases spacing with
  | compact => rfl
  | indented => exact skipGap_newline level rest

theorem skipGap_closing (spacing : Spacing) (level : Nat) (rest : List Char) :
    skipGap (spacing.closing level ++ rest) = skipGap rest := by
  cases spacing with
  | compact => rfl
  | indented => exact skipGap_newline _ rest

/-- After the last item the closing bracket is read. -/
theorem readNext_closing {closing : Char} (hclosing : closing = ']' ∨ closing = '}') (spacing : Spacing)
    (level : Nat) (rest : List Char) :
    readNext closing (spacing.closing level ++ closing :: rest) = .ok (.done rest) := by
  unfold readNext
  rw [skipGap_closing]
  rcases hclosing with rfl | rfl <;> rfl

/-- After another item the comma is read. -/
theorem readNext_between {closing : Char} (hclosing : closing = ']' ∨ closing = '}') (spacing : Spacing)
    (level : Nat) {text : List Char} (htext : ValueStart text) :
    readNext closing (spacing.between level ++ text) = .ok (.more text) := by
  have hskip : ∃ gap, spacing.between level ++ text = ',' :: gap ∧ skipGap gap = text := by
    cases spacing with
    | compact => exact ⟨_, rfl, skipGap_of_start htext⟩
    | indented =>
        refine ⟨newline level ++ text, rfl, ?_⟩
        rw [skipGap_newline, skipGap_of_start htext]
  obtain ⟨gap, hgap, htext'⟩ := hskip
  have hcomma : skipGap (',' :: gap) = ',' :: gap := rfl
  unfold readNext
  rw [hgap, hcomma]
  dsimp only
  rw [htext']
  rcases hclosing with rfl | rfl <;> rfl

theorem length_between_pos (spacing : Spacing) (level : Nat) : 0 < (spacing.between level).length := by
  cases spacing <;> exact Nat.succ_pos _

/-- No number goes on with what follows an item. -/
theorem delimiter_between (spacing : Spacing) (level : Nat) (rest : List Char) :
    Decimal.Delimiter (spacing.between level ++ rest) := by
  cases spacing <;> exact Decimal.delimiter_cons (by decide) _

theorem delimiter_closing {closing : Char} (hclosing : closing = ']' ∨ closing = '}') (spacing : Spacing)
    (level : Nat) (rest : List Char) : Decimal.Delimiter (spacing.closing level ++ closing :: rest) := by
  cases spacing with
  | indented => exact Decimal.delimiter_cons (by decide) _
  | compact => rcases hclosing with rfl | rfl <;> exact Decimal.delimiter_cons (by decide) _

/-! ## How values start -/

theorem valueStart_cons {c : Char} (h : isGap c = false ∧ c ≠ ']' ∧ c ≠ '\x7d' ∧ c ≠ '\ufeff')
    (tail : List Char) : ValueStart (c :: tail) := ⟨c, tail, rfl, h⟩

theorem not_special_of_scalarStart {c : Char} (h : ScalarStart c) :
    (isGap c = false ∧ c ≠ ']' ∧ c ≠ '\x7d' ∧ c ≠ '\ufeff') ∧ c ≠ '"' ∧ c ≠ '[' ∧ c ≠ '\x7b' := by
  rcases h with hdigit | hword
  · have hne (d : Char) (hd : d.isDigit = false) : c ≠ d := ne_of_isDigit hdigit hd
    have hgap : isGap c = false := by
      unfold isGap
      simp [hne ' ' rfl, hne '\t' rfl, hne '\n' rfl, hne '\r' rfl]
    exact ⟨⟨hgap, hne ']' rfl, hne '\x7d' rfl, hne '\ufeff' rfl⟩, hne '"' rfl, hne '[' rfl, hne '\x7b' rfl⟩
  · simp only [List.mem_cons, List.not_mem_nil, or_false] at hword
    rcases hword with rfl | rfl | rfl | rfl | rfl | rfl <;> decide

/-- Every value starts as one, whatever stands after it. -/
theorem valueStart_write (spacing : Spacing) (level : Nat) (value : Json) (rest : List Char) :
    ValueStart (write spacing level value ++ rest) := by
  have hscalar {text : List Char} (h : ∃ c tail, text = c :: tail ∧ ScalarStart c) : ValueStart (text ++ rest) := by
    obtain ⟨c, tail, rfl, hc⟩ := h
    exact valueStart_cons (not_special_of_scalarStart hc).1 _
  cases value with
  | null => exact valueStart_cons (by decide) _
  | bool b => cases b <;> exact valueStart_cons (by decide) _
  | int n => exact hscalar (scalarStart_int n)
  | float x => exact hscalar (scalarStart_float x)
  | str s => exact valueStart_cons (by decide) _
  | arr items => cases items <;> exact valueStart_cons (by decide) _
  | obj fields => cases fields <;> exact valueStart_cons (by decide) _

/-! ## Values -/

/-- A value is read back from its text, written at any level and in any spacing, up to where a scalar may end, if
the fuel is enough. -/
def ReadsAt (limit : DigitLimit) (spacing : Spacing) (value : Json) : Prop :=
  ∀ (level : Nat) (rest : List Char) (fuel : Nat), Decimal.Delimiter rest →
    2 * (write spacing level value).length + 1 ≤ fuel →
      readValue limit fuel (write spacing level value ++ rest) = .ok (value, rest)

section Reading

variable {limit : DigitLimit} {spacing : Spacing}

/-- What starts like a word or a number is read as a scalar. -/
theorem readValue_scalar {c : Char} (hc : ScalarStart c) (fuel : Nat) (tail : List Char) :
    readValue limit (fuel + 1) (c :: tail) = readScalar limit (c :: tail) := by
  obtain ⟨-, hquote, hbracket, hbrace⟩ := not_special_of_scalarStart hc
  rw [readValue]
  all_goals
    rintro rest ⟨⟩
    contradiction

theorem readsAt_scalar {value : Json}
    (hstart : ∀ level, ∃ c tail, write spacing level value = c :: tail ∧ ScalarStart c)
    (hread : ∀ level rest, Decimal.Delimiter rest →
      readScalar limit (write spacing level value ++ rest) = .ok (value, rest)) : ReadsAt limit spacing value := by
  intro level rest fuel hrest hfuel
  obtain ⟨c, tail, htext, hc⟩ := hstart level
  obtain ⟨fuel, rfl⟩ := Nat.exists_eq_add_one_of_ne_zero (Nat.ne_zero_of_lt hfuel)
  have hread := hread level rest hrest
  rw [htext, List.cons_append] at hread ⊢
  rw [readValue_scalar hc, hread]

/-- A value that is written as a word is read back. -/
theorem readsAt_word {word : List Char} {value : Json} (hwrite : ∀ level, write spacing level value = word)
    (hword : (word, value) ∈ words) (hstart : ∃ c tail, word = c :: tail ∧ ScalarStart c) :
    ReadsAt limit spacing value := by
  refine readsAt_scalar (fun level => by rwa [hwrite]) fun level rest _ => ?_
  rw [hwrite]
  exact readScalar_word hword rest

theorem readsAt_null : ReadsAt limit spacing .null :=
  readsAt_word (fun _ => rfl) (by decide) ⟨'n', _, rfl, .inr (by decide)⟩

theorem readsAt_bool (b : Bool) : ReadsAt limit spacing (.bool b) := by
  cases b with
  | false => exact readsAt_word (fun _ => rfl) (by decide) ⟨'f', _, rfl, .inr (by decide)⟩
  | true => exact readsAt_word (fun _ => rfl) (by decide) ⟨'t', _, rfl, .inr (by decide)⟩

theorem readsAt_int {n : Int} (hn : ReadsBack limit (.int n)) : ReadsAt limit spacing (.int n) :=
  readsAt_scalar (fun _ => scalarStart_int n) fun _ _ hrest => readScalar_int hn hrest

theorem readsAt_float {x : Float} (hx : ReadsBack limit (.float x)) : ReadsAt limit spacing (.float x) :=
  readsAt_scalar (fun _ => scalarStart_float x) fun _ _ hrest => readScalar_float hx hrest

theorem readsAt_str (s : String) : ReadsAt limit spacing (.str s) := by
  intro level rest fuel _ hfuel
  obtain ⟨fuel, rfl⟩ := Nat.exists_eq_add_one_of_ne_zero (Nat.ne_zero_of_lt hfuel)
  rw [write, writeString, List.cons_append, List.cons_append, List.append_assoc, List.singleton_append, readValue,
    readString_written]
  rfl

/-! ### Lists -/

/-- The text from an item to the closing bracket is read as the items. -/
theorem readItems_written {item : Json} {items : List Json} (h : ∀ v ∈ item :: items, ReadsAt limit spacing v)
    (level : Nat) (rest : List Char) {fuel : Nat}
    (hfuel : 2 * ((write spacing level item).length + (writeItems spacing level items).length) + 2 ≤ fuel) :
    readItems limit fuel (write spacing level item ++
      (writeItems spacing level items ++ (spacing.closing level ++ ']' :: rest))) = .ok (item :: items, rest) := by
  induction items generalizing item fuel with
  | nil =>
      obtain ⟨fuel, rfl⟩ := Nat.exists_eq_add_one_of_ne_zero (Nat.ne_zero_of_lt hfuel)
      have hitem := h item List.mem_cons_self level (spacing.closing level ++ ']' :: rest) fuel
        (delimiter_closing (.inl rfl) spacing level rest) (by omega)
      rw [writeItems, List.nil_append, readItems, hitem]
      show (readNext ']' (spacing.closing level ++ ']' :: rest)).bind _ = _
      rw [readNext_closing (.inl rfl)]
      rfl
  | cons next items ih =>
      obtain ⟨fuel, rfl⟩ := Nat.exists_eq_add_one_of_ne_zero (Nat.ne_zero_of_lt hfuel)
      rw [writeItems, List.length_append, List.length_append] at hfuel
      have hbetween := length_between_pos spacing level
      have hitem := h item List.mem_cons_self level (spacing.between level ++ (write spacing level next ++
        (writeItems spacing level items ++ (spacing.closing level ++ ']' :: rest)))) fuel
        (delimiter_between spacing level _) (by omega)
      have hrest : readItems limit fuel (write spacing level next ++
          (writeItems spacing level items ++ (spacing.closing level ++ ']' :: rest))) = .ok (next :: items, rest) :=
        ih (fun v hv => h v (List.mem_cons_of_mem _ hv)) (by omega)
      rw [writeItems, List.append_assoc, List.append_assoc, readItems, hitem]
      show (readNext ']' (spacing.between level ++ _)).bind _ = _
      rw [readNext_between (.inl rfl) spacing level (valueStart_write spacing level next _)]
      show (readItems limit fuel _).bind _ = _
      rw [hrest]
      rfl

/-- The items of a list are read after its opening bracket. -/
theorem readValue_list {fuel : Nat} {level : Nat} {text : List Char} (h : ValueStart text) :
    readValue limit (fuel + 1) ('[' :: (spacing.opening level ++ text)) =
      (readItems limit fuel text).map fun (items, rest) => (.arr items, rest) := by
  obtain ⟨c, tail, rfl, -, hbracket, -⟩ := id h
  rw [readValue, skipGap_opening, skipGap_of_start h]
  split
  case h_1 heq => exact absurd (List.cons.inj heq).1 hbracket
  case h_2 => rfl

/-- A list is read back if its items are. -/
theorem readsAt_arr {items : List Json} (h : ∀ item ∈ items, ReadsAt limit spacing item) :
    ReadsAt limit spacing (.arr items) := by
  intro level rest fuel _ hfuel
  obtain ⟨fuel, rfl⟩ := Nat.exists_eq_add_one_of_ne_zero (Nat.ne_zero_of_lt hfuel)
  cases items with
  | nil => rw [write]; rfl
  | cons item items =>
      have hlength : 2 * ((write spacing (level + 1) item).length +
          (writeItems spacing (level + 1) items).length) + 2 ≤ fuel := by
        rw [write] at hfuel
        simp only [List.length_append, List.length_cons, List.length_nil] at hfuel
        omega
      have hitems := readItems_written h (level + 1) rest hlength
      have hstart := valueStart_write spacing (level + 1) item
        (writeItems spacing (level + 1) items ++ (spacing.closing (level + 1) ++ ']' :: rest))
      rw [write]
      simp only [List.cons_append, List.append_assoc, List.nil_append]
      rw [readValue_list hstart, hitems]
      rfl

/-! ### Objects -/

/-- The fields of an object are read after its opening bracket. -/
theorem readValue_object {fuel : Nat} {level : Nat} {text : List Char} (h : ValueStart text) :
    readValue limit (fuel + 1) ('\x7b' :: (spacing.opening level ++ text)) =
      (readFields limit fuel [] text).map fun (fields, rest) => (.obj fields, rest) := by
  obtain ⟨c, tail, rfl, -, -, hbrace, -⟩ := id h
  rw [readValue, skipGap_opening, skipGap_of_start h]
  split
  case h_1 heq => exact absurd (List.cons.inj heq).1 hbrace
  case h_2 => rfl

theorem valueStart_writeString (s : String) (rest : List Char) : ValueStart (writeString s ++ rest) :=
  valueStart_cons (by decide) _

/-- The name of a field is read with its colon. -/
theorem readName_written (key : String) {text : List Char} (htext : ValueStart text) :
    readName (writeString key ++ ':' :: ' ' :: text) = .ok (key, text) := by
  have hskip : skipGap (' ' :: text) = text := skipGap_of_start htext
  rw [writeString, List.cons_append, List.cons_append, List.append_assoc, List.singleton_append, readName,
    readString_written]
  show Except.ok (key, skipGap (' ' :: text)) = _
  rw [hskip]

theorem insert_before {before fields : List (String × Json)} {key : String} {value : Json}
    (hkeys : ((before ++ (key, value) :: fields).map Prod.fst).Nodup) :
    Assoc.insert before key value = before ++ [(key, value)] := by
  refine Assoc.insert_of_not_mem ?_ value
  rw [List.map_append, List.map_cons] at hkeys
  intro hkey
  exact (List.nodup_append.mp hkeys).2.2 key hkey key List.mem_cons_self rfl

/-- The text from a field to the closing bracket is read as the fields, after those that were read. -/
theorem readFields_written {key : String} {value : Json} {fields : List (String × Json)}
    (h : ∀ f ∈ (key, value) :: fields, ReadsAt limit spacing f.2) (before : List (String × Json))
    (hkeys : ((before ++ (key, value) :: fields).map Prod.fst).Nodup) (level : Nat) (rest : List Char) {fuel : Nat}
    (hfuel : 2 * ((write spacing level value).length + (writeFields spacing level fields).length) + 2 ≤ fuel) :
    readFields limit fuel before (writeString key ++ ':' :: ' ' :: (write spacing level value ++
      (writeFields spacing level fields ++ (spacing.closing level ++ '\x7d' :: rest)))) =
        .ok (before ++ (key, value) :: fields, rest) := by
  induction fields generalizing key value before fuel with
  | nil =>
      obtain ⟨fuel, rfl⟩ := Nat.exists_eq_add_one_of_ne_zero (Nat.ne_zero_of_lt hfuel)
      have hvalue : readValue limit fuel (write spacing level value ++ (spacing.closing level ++ '\x7d' :: rest)) =
          .ok (value, spacing.closing level ++ '\x7d' :: rest) :=
        h _ List.mem_cons_self level _ fuel (delimiter_closing (.inr rfl) spacing level rest) (by dsimp only; omega)
      rw [writeFields, List.nil_append, readFields, readName_written key (valueStart_write ..)]
      show (readValue limit fuel _).bind _ = _
      rw [hvalue]
      show (readNext '\x7d' (spacing.closing level ++ '\x7d' :: rest)).bind _ = _
      rw [readNext_closing (.inr rfl), insert_before hkeys]
      rfl
  | cons next fields ih =>
      obtain ⟨key', value'⟩ := next
      obtain ⟨fuel, rfl⟩ := Nat.exists_eq_add_one_of_ne_zero (Nat.ne_zero_of_lt hfuel)
      have hbetween := length_between_pos spacing level
      have hfuel' : 2 * ((write spacing level value).length + ((spacing.between level).length +
          ((write spacing level value').length + (writeFields spacing level fields).length))) + 2 ≤ fuel + 1 := by
        rw [writeFields] at hfuel
        simp only [List.length_append, List.length_cons] at hfuel
        omega
      have hvalue : readValue limit fuel (write spacing level value ++ (spacing.between level ++ (writeString key' ++
            ':' :: ' ' :: (write spacing level value' ++ (writeFields spacing level fields ++
              (spacing.closing level ++ '\x7d' :: rest)))))) =
          .ok (value, spacing.between level ++ (writeString key' ++ ':' :: ' ' :: (write spacing level value' ++
            (writeFields spacing level fields ++ (spacing.closing level ++ '\x7d' :: rest))))) :=
        h _ List.mem_cons_self level _ fuel (delimiter_between spacing level _) (by dsimp only; omega)
      -- the field joins those that were read before it
      have hkeys' : ((before ++ [(key, value)] ++ (key', value') :: fields).map Prod.fst).Nodup := by
        rwa [List.append_assoc, List.singleton_append]
      have hrest := ih (fun f hf => h f (List.mem_cons_of_mem _ hf)) (before ++ [(key, value)]) hkeys'
        (show _ ≤ fuel by omega)
      rw [writeFields]
      simp only [List.append_assoc, List.cons_append]
      rw [readFields, readName_written key (valueStart_write ..)]
      show (readValue limit fuel _).bind _ = _
      rw [hvalue]
      show (readNext '\x7d' (spacing.between level ++ _)).bind _ = _
      rw [readNext_between (.inr rfl) spacing level (valueStart_writeString key' _), insert_before hkeys]
      show readFields limit fuel (before ++ [(key, value)]) _ = _
      rw [hrest, List.append_assoc, List.singleton_append]

/-- An object is read back if its values are and no key stands in it twice. -/
theorem readsAt_obj {fields : List (String × Json)} (hkeys : (fields.map Prod.fst).Nodup)
    (h : ∀ f ∈ fields, ReadsAt limit spacing f.2) : ReadsAt limit spacing (.obj fields) := by
  intro level rest fuel _ hfuel
  obtain ⟨fuel, rfl⟩ := Nat.exists_eq_add_one_of_ne_zero (Nat.ne_zero_of_lt hfuel)
  cases fields with
  | nil => rw [write]; rfl
  | cons field fields =>
      obtain ⟨key, value⟩ := field
      have hlength : 2 * ((write spacing (level + 1) value).length +
          (writeFields spacing (level + 1) fields).length) + 2 ≤ fuel := by
        rw [write] at hfuel
        simp only [List.length_append, List.length_cons, List.length_nil] at hfuel
        omega
      have hfields := readFields_written h [] hkeys (level + 1) rest hlength
      rw [write]
      simp only [List.cons_append, List.append_assoc, List.nil_append]
      rw [readValue_object (valueStart_writeString key _), hfields]
      rfl

/-! ### Documents -/

/-- **A value is read back** if its scalars are and no object in it has a key twice. -/
theorem readsAt_of_unambiguous {value : Json} (h : value.Unambiguous)
    (hscalars : ∀ s ∈ value.scalars, ReadsBack limit s) : ReadsAt limit spacing value := by
  induction h with
  | null => exact readsAt_null
  | bool b => exact readsAt_bool b
  | int n => exact readsAt_int (hscalars _ List.mem_cons_self)
  | float x => exact readsAt_float (hscalars _ List.mem_cons_self)
  | str s => exact readsAt_str s
  | arr _ ih => exact readsAt_arr fun item hitem => ih item hitem fun s hs => hscalars s (mem_scalars_arr hitem hs)
  | obj hkeys _ ih => exact readsAt_obj hkeys fun f hf => ih f hf fun s hs => hscalars s (mem_scalars_obj hf hs)

/-- What starts with a value is read as a document if it is read as a value up to its end. -/
theorem readDocument_of_readValue {text : List Char} {value : Json} (hstart : ValueStart text)
    (hread : readValue limit (2 * text.length + 1) text = .ok (value, [])) :
    readDocument limit text = .ok value := by
  have hgap := skipGap_of_start hstart
  obtain ⟨c, tail, rfl, -, -, -, hmark⟩ := hstart
  unfold readDocument
  split
  case h_1 heq => exact absurd (List.cons.inj heq).1 hmark
  case h_2 =>
    rw [hgap, hread]
    rfl

/-- **A document is read back.** -/
theorem parse_write {value : Json} (h : value.Unambiguous) (hscalars : ∀ s ∈ value.scalars, ReadsBack limit s) :
    parse limit (String.ofList (write spacing 0 value)) = .ok value := by
  have hvalue : ReadsAt limit spacing value := readsAt_of_unambiguous h hscalars
  have hread := hvalue 0 [] _ Decimal.delimiter_nil (Nat.le_refl _)
  have hstart := valueStart_write spacing 0 value []
  rw [List.append_nil] at hread hstart
  unfold parse
  rw [String.toList_ofList, readDocument_of_readValue hstart hread]
  rfl

end Reading

end Json

end TradingRules
