import CyberGuard.Shared.Json

/-!
# JSON texts

A value over the naturals as a text without blanks, and the reader of such texts. In a
string the quote and the backslash are escaped, no other character is. The reader takes a
value off the front of the characters, so its lemmas are about a text and what follows it.
-/

namespace Json
set_option autoImplicit false
open List

def escape : List Char → List Char
  | [] => ['"']
  | c :: rest => if c = '"' ∨ c = '\\' then '\\' :: c :: escape rest else c :: escape rest

/-- What follows an opening bracket, of what would follow an element. -/
def dropComma : List Char → List Char
  | ',' :: rest => rest
  | text => text

mutual
def text : Json Nat → List Char
  | .null => ['n', 'u', 'l', 'l']
  | .boolean true => ['t', 'r', 'u', 'e']
  | .boolean false => ['f', 'a', 'l', 's', 'e']
  | .number n => Nat.toDigits 10 n
  | .string s => '"' :: escape s.toList
  | .array items => '[' :: dropComma (itemsText items)
  | .object fields => '\x7b' :: dropComma (fieldsText fields)

def itemsText : List (Json Nat) → List Char
  | [] => [']']
  | item :: rest => ',' :: (item.text ++ itemsText rest)

def fieldsText : List (String × Json Nat) → List Char
  | [] => ['\x7d']
  | (name, value) :: rest =>
    ',' :: '"' :: (escape name.toList ++ ':' :: (value.text ++ fieldsText rest))
end

def readString : List Char → Option (List Char × List Char)
  | [] => none
  | '"' :: rest => some ([], rest)
  | '\\' :: c :: rest => (readString rest).map fun (cs, rest) => (c :: cs, rest)
  | c :: rest => (readString rest).map fun (cs, rest) => (c :: cs, rest)

def addComma (close : Char) (text : List Char) : List Char :=
  if text.head? = some close then text else ',' :: text

def readNumber (text : List Char) : Option (Nat × List Char) :=
  let digits := text.takeWhile Char.isDigit
  if digits = [] then none
  else some (Nat.ofDigitChars 10 digits 0, text.dropWhile Char.isDigit)

mutual
def readValue : Nat → List Char → Option (Json Nat × List Char)
  | 0, _ => none
  | _ + 1, 'n' :: 'u' :: 'l' :: 'l' :: rest => some (.null, rest)
  | _ + 1, 't' :: 'r' :: 'u' :: 'e' :: rest => some (.boolean true, rest)
  | _ + 1, 'f' :: 'a' :: 'l' :: 's' :: 'e' :: rest => some (.boolean false, rest)
  | _ + 1, '"' :: rest => (readString rest).map fun (cs, rest) => (.string (String.ofList cs), rest)
  | fuel + 1, '[' :: rest =>
    (readItems fuel (addComma ']' rest)).map fun (items, rest) => (.array items, rest)
  | fuel + 1, '\x7b' :: rest =>
    (readFields fuel (addComma '\x7d' rest)).map fun (fields, rest) => (.object fields, rest)
  | _ + 1, text => (readNumber text).map fun (n, rest) => (.number n, rest)

def readItems : Nat → List Char → Option (List (Json Nat) × List Char)
  | _ + 1, ']' :: rest => some ([], rest)
  | fuel + 1, ',' :: rest => do
    let (item, rest) ← readValue fuel rest
    let (items, rest) ← readItems fuel rest
    return (item :: items, rest)
  | _, _ => none

def readFields : Nat → List Char → Option (List (String × Json Nat) × List Char)
  | _ + 1, '\x7d' :: rest => some ([], rest)
  | fuel + 1, ',' :: '"' :: rest => do
    let (name, rest) ← readString rest
    match rest with
    | ':' :: rest => do
      let (value, rest) ← readValue fuel rest
      let (fields, rest) ← readFields fuel rest
      return ((String.ofList name, value) :: fields, rest)
    | _ => none
  | _, _ => none
end

def write (v : Json Nat) : String := String.ofList v.text

def read (s : String) : Option (Json Nat) :=
  match readValue (2 * s.toList.length) s.toList with
  | some (v, []) => some v
  | _ => none

theorem readString_escape (cs rest : List Char) :
    readString (escape cs ++ rest) = some (cs, rest) := by
  induction cs with
  | nil => rfl
  | cons c cs ih =>
    rw [escape]
    split
    · rename_i hescaped
      rcases hescaped with rfl | rfl
      · simp [readString, ih]
      · simp [readString, ih]
    · rename_i hplain
      rw [not_or] at hplain
      rw [cons_append, readString, ih]
      · rfl
      · exact hplain.1
      · intro _ _ h
        exact absurd h hplain.2

/-- What may follow a value: a number goes on with every digit. -/
def Ends (rest : List Char) : Prop := ∀ c ∈ rest.head?, c.isDigit = false

theorem readNumber_toDigits (n : Nat) {rest : List Char} (hends : Ends rest) :
    readNumber (Nat.toDigits 10 n ++ rest) = some (n, rest) := by
  have hdigits : ∀ c ∈ Nat.toDigits 10 n, c.isDigit = true := fun c hc =>
    Nat.isDigit_of_mem_toDigits (by decide) (by decide) hc
  have htake : (Nat.toDigits 10 n ++ rest).takeWhile Char.isDigit = Nat.toDigits 10 n := by
    rw [takeWhile_append_of_pos hdigits]
    cases rest with
    | nil => rw [takeWhile_nil, append_nil]
    | cons c rest => simp [hends c rfl]
  have hdrop : (Nat.toDigits 10 n ++ rest).dropWhile Char.isDigit = rest := by
    rw [dropWhile_append_of_pos hdigits]
    cases rest with
    | nil => rfl
    | cons c rest => simp [hends c rfl]
  rw [readNumber, htake, hdrop]
  simp [Nat.toDigits_ne_nil, Nat.ofDigitChars_ten_toDigits]

theorem readValue_number (fuel n : Nat) {rest : List Char} (hends : Ends rest) :
    readValue (fuel + 1) (Nat.toDigits 10 n ++ rest) = some (.number n, rest) := by
  obtain ⟨c, cs, hcons⟩ := exists_cons_of_ne_nil (Nat.toDigits_ne_nil (n := n) (b := 10))
  have hdigit : c.isDigit = true :=
    Nat.isDigit_of_mem_toDigits (b := 10) (n := n) (by decide) (by decide) (by simp [hcons])
  have hnumber := readNumber_toDigits n hends
  rw [hcons] at hnumber ⊢
  rw [cons_append] at hnumber ⊢
  rw [readValue, hnumber]
  · rfl
  all_goals
    intro _ h
    rw [(List.cons.inj h).1] at hdigit
    exact absurd hdigit (by decide)

theorem length_text_pos (v : Json Nat) : 0 < v.text.length := by
  cases v with
  | boolean b => cases b <;> simp [text]
  | number n => exact Nat.length_toDigits_pos
  | _ => simp [text]

theorem head_text (v : Json Nat) (rest : List Char) : (v.text ++ rest).head? ≠ some ']' := by
  cases v with
  | boolean b => cases b <;> simp [text]
  | number n =>
    intro h
    rw [text, List.head?_append_of_ne_nil _ Nat.toDigits_ne_nil] at h
    have hdigit := Nat.isDigit_of_mem_toDigits (by decide) (by decide) (mem_of_mem_head? h)
    exact absurd hdigit (by decide)
  | _ => simp [text]

theorem addComma_items (items : List (Json Nat)) (rest : List Char) :
    addComma ']' (dropComma (itemsText items) ++ rest) = itemsText items ++ rest := by
  cases items with
  | nil => rfl
  | cons item items =>
    rw [itemsText, dropComma, append_assoc, addComma, if_neg (head_text item _)]
    simp

theorem addComma_fields (fields : List (String × Json Nat)) (rest : List Char) :
    addComma '\x7d' (dropComma (fieldsText fields) ++ rest) = fieldsText fields ++ rest := by
  cases fields with
  | nil => rfl
  | cons field fields => simp [fieldsText, dropComma, addComma]

theorem length_dropComma (text : List Char) : text.length ≤ (dropComma text).length + 1 := by
  unfold dropComma
  split <;> simp

mutual
theorem readValue_text (fuel : Nat) (v : Json Nat) {rest : List Char} (hends : Ends rest)
    (hfuel : 2 * v.text.length ≤ fuel + 1) :
    readValue (fuel + 1) (v.text ++ rest) = some (v, rest) := by
  cases v with
  | null => simp [text, readValue]
  | boolean b => cases b <;> simp [text, readValue]
  | number n => exact readValue_number fuel n hends
  | string s => simp [text, readValue, readString_escape]
  | array items =>
    have hlength := length_dropComma (itemsText items)
    rw [text, length_cons] at hfuel
    rw [text, cons_append, readValue, addComma_items, readItems_text _ items (by omega)]
    rfl
  | object fields =>
    have hlength := length_dropComma (fieldsText fields)
    rw [text, length_cons] at hfuel
    rw [text, cons_append, readValue, addComma_fields, readFields_text _ fields (by omega)]
    rfl

theorem readItems_text (fuel : Nat) (items : List (Json Nat)) {rest : List Char}
    (hfuel : 2 * (itemsText items).length ≤ fuel + 1) :
    readItems fuel (itemsText items ++ rest) = some (items, rest) := by
  cases items with
  | nil =>
    obtain ⟨fuel, rfl⟩ : ∃ n, fuel = n + 1 := ⟨fuel - 1, by simp [itemsText] at hfuel; omega⟩
    rfl
  | cons item items =>
    have hpos := item.length_text_pos
    simp only [itemsText, length_cons, length_append] at hfuel
    obtain ⟨fuel, rfl⟩ : ∃ n, fuel = n + 2 := ⟨fuel - 2, by omega⟩
    have hends : Ends (itemsText items ++ rest) := by cases items <;> simp [Ends, itemsText]
    rw [itemsText, cons_append, append_assoc, readItems,
      readValue_text _ item hends (by omega)]
    simp [readItems_text (fuel + 1) items (by omega)]

theorem readFields_text (fuel : Nat) (fields : List (String × Json Nat)) {rest : List Char}
    (hfuel : 2 * (fieldsText fields).length ≤ fuel + 1) :
    readFields fuel (fieldsText fields ++ rest) = some (fields, rest) := by
  cases fields with
  | nil =>
    obtain ⟨fuel, rfl⟩ : ∃ n, fuel = n + 1 := ⟨fuel - 1, by simp [fieldsText] at hfuel; omega⟩
    rfl
  | cons field fields =>
    obtain ⟨name, value⟩ := field
    simp only [fieldsText, length_cons, length_append] at hfuel
    obtain ⟨fuel, rfl⟩ : ∃ n, fuel = n + 2 := ⟨fuel - 2, by omega⟩
    have hends : Ends (fieldsText fields ++ rest) := by cases fields <;> simp [Ends, fieldsText]
    rw [fieldsText, cons_append, cons_append, append_assoc, cons_append,
      append_assoc, readFields, readString_escape]
    simp [readValue_text fuel value hends (by omega),
      readFields_text (fuel + 1) fields (by omega)]
end

theorem read_write (v : Json Nat) : read v.write = some v := by
  have hpos := v.length_text_pos
  obtain ⟨fuel, hfuel⟩ : ∃ n, 2 * v.text.length = n + 1 := ⟨2 * v.text.length - 1, by omega⟩
  have hread : readValue (fuel + 1) (v.text ++ []) = some (v, []) :=
    readValue_text fuel v (fun _ h => nomatch h) hfuel.le
  rw [append_nil] at hread
  rw [read, write, String.toList_ofList, hfuel, hread]

theorem write_injective : Function.Injective write := by
  intro v w h
  exact Option.some.inj ((read_write v).symm.trans ((congrArg read h).trans (read_write w)))

end Json
