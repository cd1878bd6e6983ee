import TokenGrammar.Proofs.Json.Lexemes

/-! Documents and their compact form. A document without floating-point numbers can be told from its
text, whatever follows, by induction on the document: the first character shows its form, and each
of its parts tells where it ends.
-/

namespace TokenGrammar.Json

variable {β : Type}

-----------------------------------------------------------------------------------------
-- Texts that determine what was written
-----------------------------------------------------------------------------------------

/-- No other value of this sort is written the same, and its text shows where it ends. What follows
only must not look like more of an integer.
-/
def Determines (write : β → List Char) (sort : β → Prop) (value : β) : Prop :=
  ∀ other rest rest',
    sort other
    → Ends rest
    → Ends rest'
    → write value ++ rest = write other ++ rest'
    → value = other ∧ rest = rest'

/-- Values one after the other, with a comma between them. -/
def separated (write : β → List Char) : List β → List Char
  | [] => []
  | value :: rest => write value ++ rest.flatMap fun value => ',' :: write value

section Lists

variable {write : β → List Char} {sort : β → Prop} {close : Char} {values : List β}

/-- In front of a comma or a closing character, an integer has ended, by cases on whether values
follow.
-/
theorem ends_flatMap_append {rest : List Char} (hclose : isNumeric close = false) (values : List β)
    : Ends ((values.flatMap fun value => ',' :: write value) ++ close :: rest) := by
  cases values with
  | nil => exact ends_cons hclose
  | cons value values => exact ends_cons rfl

/-- Values behind commas are determined up to the closing character, by induction on the values. -/
theorem determines_flatMap (hclose : isNumeric close = false) (hcomma : close ≠ ',')
    (h : ∀ value ∈ values, Determines write sort value) {others : List β} {rest rest' : List Char}
    (hothers : ∀ other ∈ others, sort other)
    (heq
      : (values.flatMap fun value => ',' :: write value) ++ close :: rest
        = (others.flatMap fun value => ',' :: write value) ++ close :: rest')
    : values = others ∧ rest = rest' := by
  induction values generalizing others with
  | nil =>
      cases others with
      | nil => exact ⟨rfl, List.tail_eq_of_cons_eq heq⟩
      | cons other others => exact absurd (List.head_eq_of_cons_eq heq) hcomma
  | cons value values ih =>
      cases others with
      | nil => exact absurd (List.head_eq_of_cons_eq heq).symm hcomma
      | cons other others =>
          obtain ⟨hvalue, hvalues⟩ := List.forall_mem_cons.mp h
          obtain ⟨hother, hremaining⟩ := List.forall_mem_cons.mp hothers
          simp only [List.flatMap_cons, List.cons_append, List.append_assoc, List.cons.injEq,
            true_and] at heq
          obtain ⟨rfl, htail⟩ := hvalue _ _ _ hother (ends_flatMap_append hclose values)
            (ends_flatMap_append hclose others) heq
          obtain ⟨rfl, rfl⟩ := ih hvalues hremaining htail
          exact ⟨rfl, rfl⟩

/-- A list of values is determined if each of its values is, and none starts like its end. By
cases on whether there are any on either side.
-/
theorem determines_separated (hclose : isNumeric close = false) (hcomma : close ≠ ',')
    (hopen : ∀ value rest rest', sort value → write value ++ rest ≠ close :: rest')
    (h : ∀ value ∈ values, Determines write sort value) (hsort : ∀ value ∈ values, sort value)
    {others : List β} {rest rest' : List Char} (hothers : ∀ other ∈ others, sort other)
    (heq : separated write values ++ close :: rest = separated write others ++ close :: rest')
    : values = others ∧ rest = rest' := by
  cases values with
  | nil =>
      cases others with
      | nil => exact ⟨rfl, List.tail_eq_of_cons_eq heq⟩
      | cons other others =>
          rw [separated, separated, List.append_assoc] at heq
          exact absurd heq.symm (hopen other _ _ (hothers other (List.mem_cons_self ..)))
  | cons value values =>
      cases others with
      | nil =>
          rw [separated, separated, List.append_assoc] at heq
          exact absurd heq (hopen value _ _ (hsort value (List.mem_cons_self ..)))
      | cons other others =>
          obtain ⟨hvalue, hvalues⟩ := List.forall_mem_cons.mp h
          obtain ⟨hother, hremaining⟩ := List.forall_mem_cons.mp hothers
          rw [separated, separated, List.append_assoc, List.append_assoc] at heq
          obtain ⟨rfl, htail⟩ := hvalue _ _ _ hother (ends_flatMap_append hclose values)
            (ends_flatMap_append hclose others) heq
          obtain ⟨rfl, rfl⟩ := determines_flatMap hclose hcomma hvalues hremaining htail
          exact ⟨rfl, rfl⟩

end Lists

-----------------------------------------------------------------------------------------
-- The compact form
-----------------------------------------------------------------------------------------

/-- Texts that are joined with commas are separated by them, by induction on them. -/
theorem toList_joined (texts : List String)
    : (joined "," texts).toList = separated String.toList texts := by
  induction texts with
  | nil => rfl
  | cons text rest ih =>
      cases rest with
      | nil => simp [joined, separated]
      | cons next rest => simp [joined, ih, separated]

/-- Changed values are separated as they are, each written with its change. -/
theorem separated_map {γ : Type} (write : β → List Char) (change : γ → β) (values : List γ)
    : separated write (values.map change)
      = separated (fun value => write (change value)) values := by
  cases values with
  | nil => rfl
  | cons value rest => simp [separated, List.flatMap_map]

/-- The items of an array are written one by one, by induction on them. -/
theorem compactItems_eq_map (items : List Document)
    : compactItems items = items.map Document.compact := by
  induction items with
  | nil => rfl
  | cons item rest ih => rw [compactItems, ih, List.map_cons]

/-- The members of an object are written one by one, by induction on them. -/
theorem compactMembers_eq_map (members : List (String × Document))
    : compactMembers members
      = members.map fun member => quoted member.1 ++ ":" ++ member.2.compact := by
  induction members with
  | nil => rfl
  | cons member rest ih => rw [compactMembers, ih, List.map_cons]

/-- The characters of a document in its compact form. -/
def Document.written (document : Document) : List Char :=
  document.compact.toList

/-- The characters of a member of an object. -/
def writtenMember (member : String × Document) : List Char :=
  (quoted member.1).toList ++ ':' :: member.2.written

/-- An array is written as its items in brackets. -/
theorem written_array (items : List Document)
    : (Document.array items).written = '[' :: (separated Document.written items ++ [']']) := by
  rw [Document.written, Document.compact, compactItems_eq_map]
  simp only [String.toList_append, toList_joined, separated_map]
  rfl

/-- An object is written as its members in braces. -/
theorem written_object (members : List (String × Document))
    : (Document.object members).written
      = '\x7b' :: (separated writtenMember members ++ ['\x7d']) := by
  rw [Document.written, Document.compact, compactMembers_eq_map]
  simp only [String.toList_append, toList_joined, separated_map, List.append_assoc]
  rfl

-----------------------------------------------------------------------------------------
-- Forms of documents
-----------------------------------------------------------------------------------------

/-- There are no floating-point numbers in the document. -/
inductive Document.IsExact : Document → Prop where
  | null : IsExact .null
  | string (content : String) : IsExact (.string content)
  | integer (value : Int) : IsExact (.integer value)
  | array {items : List Document} (each : ∀ item ∈ items, IsExact item) : IsExact (.array items)
  | object {members : List (String × Document)} (each : ∀ member ∈ members, IsExact member.2)
    : IsExact (.object members)

/-- The forms of documents. -/
inductive Form where
  | null
  | string
  | integer
  | number
  | array
  | object
  deriving DecidableEq

/-- The form of a document. -/
def Document.form : Document → Form
  | .null => .null
  | .string _ => .string
  | .integer _ => .integer
  | .number _ => .number
  | .array _ => .array
  | .object _ => .object

/-- The form of the documents that start with this character, floating-point numbers apart. -/
def Form.startedBy? (char : Char) : Option Form :=
  if isNumeric char then some .integer
  else
    match char with
    | 'n' => some .null
    | '"' => some .string
    | '[' => some .array
    | '\x7b' => some .object
    | _ => none

/-- The first character of a document shows its form, by cases on the document. -/
theorem Document.IsExact.exists_first {document : Document} (h : document.IsExact)
    : ∃ char text,
        document.written = char :: text ∧ Form.startedBy? char = some document.form := by
  cases h with
  | null => exact ⟨'n', _, rfl, rfl⟩
  | string content => exact ⟨'"', _, toList_quoted content, rfl⟩
  | integer value =>
      have hdigits : value.repr.toList ≠ [] := by
        rw [Int.repr_eq_if]
        split <;> simp [Nat.toList_repr, Nat.toDigits_ne_nil]
      obtain ⟨char, text, htext⟩ := List.exists_cons_of_ne_nil hdigits
      have hchar : isNumeric char := isNumeric_of_mem_repr (htext ▸ List.mem_cons_self ..)
      exact ⟨char, text, htext, if_pos hchar⟩
  | array => exact ⟨'[', _, written_array _, rfl⟩
  | object => exact ⟨'\x7b', _, written_object _, rfl⟩

variable {document other : Document} {rest rest' : List Char}

/-- Documents with the same text have the same form, since they start with the same character.
-/
theorem form_eq_of_append_eq (h : document.IsExact) (hother : other.IsExact)
    (heq : document.written ++ rest = other.written ++ rest')
    : document.form = other.form := by
  obtain ⟨char, text, hwritten, hform⟩ := h.exists_first
  obtain ⟨char', text', hwritten', hform'⟩ := hother.exists_first
  rw [hwritten, hwritten'] at heq
  obtain rfl : char = char' := List.head_eq_of_cons_eq heq
  exact Option.some.inj (hform.symm.trans hform')

/-- No document starts like the end of an array, since the bracket shows no form. -/
theorem written_append_ne_bracket (h : document.IsExact)
    : document.written ++ rest ≠ ']' :: rest' := by
  obtain ⟨char, text, hwritten, hform⟩ := h.exists_first
  rw [hwritten]
  intro heq
  obtain rfl : char = ']' := List.head_eq_of_cons_eq heq
  contradiction

/-- No member starts like the end of an object, since it starts with a quote. -/
theorem writtenMember_append_ne_brace (member : String × Document)
    : writtenMember member ++ rest ≠ '\x7d' :: rest' := by
  intro heq
  rw [writtenMember, toList_quoted] at heq
  exact absurd (List.head_eq_of_cons_eq heq) (by decide)

/-- A member is determined if its value is, since its key is quoted. -/
theorem determines_member {member : String × Document}
    (h : Determines Document.written Document.IsExact member.2)
    : Determines writtenMember (fun other => other.2.IsExact) member := by
  rintro ⟨key, value⟩ rest rest' hother hrest hrest' heq
  rw [writtenMember, writtenMember, List.append_assoc, List.append_assoc] at heq
  obtain ⟨hkey, hvalue⟩ := quoted_append_inj heq
  obtain ⟨hdocument, htail⟩ := h _ _ _ hother hrest hrest' (List.tail_eq_of_cons_eq hvalue)
  exact ⟨Prod.ext hkey hdocument, htail⟩

/-- A document without floating-point numbers is determined by its text, whatever follows, by
induction on the document with its form for the other one.
-/
theorem Document.IsExact.determines (h : document.IsExact)
    : Determines Document.written Document.IsExact document := by
  induction h with
  | null =>
      intro other rest rest' hother _ _ heq
      have hform := form_eq_of_append_eq .null hother heq
      cases hother with
      | null => exact ⟨rfl, List.append_cancel_left heq⟩
      | _ => cases hform
  | string content =>
      intro other rest rest' hother _ _ heq
      have hform := form_eq_of_append_eq (.string content) hother heq
      cases hother with
      | string content' =>
          obtain ⟨rfl, rfl⟩ := quoted_append_inj heq
          exact ⟨rfl, rfl⟩
      | _ => cases hform
  | integer value =>
      intro other rest rest' hother hrest hrest' heq
      have hform := form_eq_of_append_eq (.integer value) hother heq
      cases hother with
      | integer value' =>
          obtain ⟨rfl, rfl⟩ := integer_append_inj hrest hrest' heq
          exact ⟨rfl, rfl⟩
      | _ => cases hform
  | @array items each ih =>
      intro other rest rest' hother _ _ heq
      have hform := form_eq_of_append_eq (.array each) hother heq
      cases hother with
      | @array others each' =>
          rw [written_array, written_array] at heq
          simp only [List.cons_append, List.append_assoc, List.cons.injEq, true_and,
            List.nil_append] at heq
          obtain ⟨rfl, rfl⟩ := determines_separated rfl (by decide)
            (fun _ _ _ hitem => written_append_ne_bracket hitem) ih each each' heq
          exact ⟨rfl, rfl⟩
      | _ => cases hform
  | @object members each ih =>
      intro other rest rest' hother _ _ heq
      have hform := form_eq_of_append_eq (.object each) hother heq
      cases hother with
      | @object others each' =>
          rw [written_object, written_object] at heq
          simp only [List.cons_append, List.append_assoc, List.cons.injEq, true_and,
            List.nil_append] at heq
          obtain ⟨rfl, rfl⟩ := determines_separated rfl (by decide)
            (fun member _ _ _ => writtenMember_append_ne_brace member)
            (fun member hmember => determines_member (ih member hmember)) each each' heq
          exact ⟨rfl, rfl⟩
      | _ => cases hform

theorem compact_inj (h : document.IsExact) (hother : other.IsExact)
    (heq : document.compact = other.compact)
    : document = other := by
  have hwritten : document.written ++ [] = other.written ++ [] := by
    rw [Document.written, Document.written, heq]
  exact (h.determines other [] [] hother ends_nil ends_nil hwritten).1

end TokenGrammar.Json
