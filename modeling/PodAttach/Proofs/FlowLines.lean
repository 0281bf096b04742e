import PodAttach.Proofs.Addresses
import PodAttach.Proofs.Lists
import PodAttach.Switch.FlowTable

/-!
# Flows that are read as they were written

Commas cut a line into its fields, and an equals sign cuts a field into its key
and its value.  Neither stands in a value, so each value is read back as it was
`Written`, and from there on fields and lines are put together as they were
written.

* `written_hardware`, `written_address` and so on: what the values denote.
* `Reads`: the fields of a part of a line.  Parts with commas between them have
  the fields of all parts (`reads_intercalate`).
* `Flow.denotes`: the line of a flow `Denotes` a rule.
* `readRules?_lines`: lines of which each denotes a rule are read as these rules.
-/

namespace PodAttach.Switch

open Net

/-! ## Values -/

/-- A text without the marks that a line is cut at. -/
structure Unmarked (s : String) : Prop where
  newline : '\n' ∉ s.toList
  comma : ',' ∉ s.toList
  equals : '=' ∉ s.toList

instance (s : String) : Decidable (Unmarked s) :=
  decidable_of_iff ('\n' ∉ s.toList ∧ ',' ∉ s.toList ∧ '=' ∉ s.toList)
    ⟨fun ⟨hnewline, hcomma, hequals⟩ => ⟨hnewline, hcomma, hequals⟩,
      fun h => ⟨h.newline, h.comma, h.equals⟩⟩

theorem Unmarked.append {s t : String} (hs : Unmarked s) (ht : Unmarked t) : Unmarked (s ++ t) := by
  constructor
  · simp [hs.newline, ht.newline]
  · simp [hs.comma, ht.comma]
  · simp [hs.equals, ht.equals]

/-- Numbers and addresses are made of digits, points and colons. -/
theorem unmarked_of_digits {s : String}
    (hs : ∀ c ∈ s.toList, c = '.' ∨ c = ':' ∨ Text.isHexDigit c = true) : Unmarked s := by
  constructor
  · exact fun h => absurd (hs _ h) (by decide)
  · exact fun h => absurd (hs _ h) (by decide)
  · exact fun h => absurd (hs _ h) (by decide)

/-- A text without marks that is read as a value. -/
structure Written {α : Type} (text : String) (read? : String → Option α) (a : α) : Prop where
  unmarked : Unmarked text
  read : read? text = some a

theorem written_decimal (n : Nat) : Written (Text.decimal n) readNumber? n where
  unmarked := by
    refine unmarked_of_digits fun c hc => ?_
    rw [Text.decimal, String.toList_ofList] at hc
    exact .inr (.inr (Text.isHexDigit_of_isDigit (Text.isDigit_of_mem_toDigits hc)))
  read := by rw [readNumber?, Text.decimal, String.toList_ofList, Text.readNat?_toDigits]

theorem written_cookieText (c : UInt64) : Written (cookieText c) readCookie? c.toNat where
  unmarked := by
    have hmark : Unmarked "0x" := by decide
    refine hmark.append (unmarked_of_digits fun d hd => ?_)
    rw [String.toList_ofList] at hd
    exact .inr (.inr (Text.isHexDigit_of_mem_toDigits hd))
  read := by
    have htext : (cookieText c).toList = '0' :: 'x' :: Nat.toDigits 16 c.toNat := by
      simp [cookieText]
    rw [readCookie?, htext]
    exact Text.readHex?_toDigits c.toNat

theorem written_address {a : Ip} {family : Family} (hfamily : a.family = family) :
    Written a.render (readAddress? family) a where
  unmarked := by
    refine unmarked_of_digits fun c hc => ?_
    rw [Ip.render, String.toList_ofList] at hc
    exact Ip.chars_cases hc
  read := by
    rw [readAddress?, Ip.parse?_render, Option.filter_some, if_pos (beq_iff_eq.2 hfamily)]

theorem written_action (action : Action) : Written action.render Action.read? action := by
  cases action with
  | normal => exact ⟨by decide, rfl⟩
  | drop => exact ⟨by decide, rfl⟩
  | output n =>
    have hn := written_decimal n
    have hword : Unmarked "output:" := by decide
    refine ⟨hword.append hn.unmarked, ?_⟩
    have hcolon : ':' ∉ (Text.decimal n).toList := by
      intro hmem
      rw [Text.decimal, String.toList_ofList] at hmem
      exact absurd (Text.isDigit_of_mem_toDigits hmem) (by decide)
    have htext : (Action.output n).render.toList =
        "output".toList ++ ':' :: (Text.decimal n).toList := by
      show ("output:" ++ Text.decimal n).toList = _
      simp
    have hsplit : Text.split ':' (Action.output n).render = ["output", Text.decimal n] := by
      rw [Text.split_append htext, Text.split_of_not_mem hcolon]
      rfl
    rw [Action.read?, hsplit]
    show (readNumber? _).map Action.output = _
    rw [hn.read, Option.map_some]

/-! ## Hardware addresses -/

theorem readByte?_octetChars (b : UInt8) : readByte? (Mac.octetChars b) = some b := by
  have hb := b.toNat_lt
  have hhigh := Text.hexValue?_hexDigit (d := b.toNat / 16) (by omega)
  have hlow := Text.hexValue?_hexDigit (d := b.toNat % 16) (by omega)
  have hread : Text.readHex? (Mac.octetChars b) = some (b.toNat / 16 * 16 + b.toNat % 16) := by
    simp [Text.readHex?, Mac.octetChars, hhigh, hlow]
  have hnumber : b.toNat / 16 * 16 + b.toNat % 16 = b.toNat := by omega
  have hlength : (Mac.octetChars b).length = 2 := rfl
  rw [readByte?, if_pos hlength, hread, hnumber, Option.map_some, UInt8.ofNat_toNat]

/-- The text of a hardware address denotes it. -/
theorem written_hardware (mac : Hardware) :
    Written (Mac.render mac.bytes) Hardware.read? mac where
  unmarked := by
    refine unmarked_of_digits fun c hc => ?_
    rw [Mac.render, String.toList_ofList] at hc
    refine .inr ((Text.mem_join hc).imp_right ?_)
    intro hmem
    obtain ⟨octet, hoctet, hmem⟩ := hmem
    obtain ⟨b, -, rfl⟩ := List.mem_map.1 hoctet
    exact Mac.isHexDigit_of_mem_octetChars hmem
  read := by
    have hne : mac.bytes ≠ [] := by
      intro hnil
      have hlength := mac.length_eq
      rw [hnil] at hlength
      exact absurd hlength (by decide)
    have hbytes : (mac.bytes.map Mac.octetChars).mapM readByte? = some mac.bytes :=
      mapM_eq_some_iff.2 (List.forall₂_map_left_iff.2 (List.forall₂_same.2 fun b _ =>
        readByte?_octetChars b))
    rw [Hardware.read?, Mac.pieces_render _ hne, hbytes]
    exact dif_pos mac.length_eq

/-! ## Parts of a line -/

/-- The fields that a part of a line is read as. -/
structure Reads (part : String) (fields : List Field) : Prop where
  line : '\n' ∉ part.toList
  fields : (Text.split ',' part).mapM Field.read? = some fields

theorem reads_field {part : String} {f : Field} (hnewline : '\n' ∉ part.toList)
    (hcomma : ',' ∉ part.toList) (hread : Field.read? part = some f) : Reads part [f] where
  line := hnewline
  fields := by
    rw [Text.split_of_not_mem hcomma, List.mapM_cons, hread]
    rfl

/-- A word is one field. -/
theorem Unmarked.reads {word : String} {f : Field} (hword : Unmarked word)
    (hread : Field.ofWord? word = some f) : Reads word [f] := by
  refine reads_field hword.newline hword.comma ?_
  rw [Field.read?, Text.split_of_not_mem hword.equals]
  exact hread

/-- A key and a value that was written for it are one field. -/
theorem Written.reads {α : Type} {value : String} {read? : String → Option α} {a : α}
    (h : Written value read? a) (key : String) (field : α → Field) (hkey : Unmarked key)
    (hread : ∀ v, Field.ofPair? v key = (read? v).map field) :
    Reads (key ++ "=" ++ value) [field a] := by
  have hvalue := h.unmarked
  refine reads_field ?_ ?_ ?_
  · simp [hkey.newline, hvalue.newline]
  · simp [hkey.comma, hvalue.comma]
  · have htext : (key ++ "=" ++ value).toList = key.toList ++ '=' :: value.toList := by simp
    rw [Field.read?, Text.split_append htext, Text.split_of_not_mem hkey.equals,
      Text.split_of_not_mem hvalue.equals]
    show Field.ofPair? value key = _
    rw [hread, h.read, Option.map_some]

/-- A comma stands between the fields before it and those after it. -/
theorem Reads.comma {s t part : String} {fs gs : List Field} (hs : Reads s fs) (ht : Reads t gs)
    (hpart : part.toList = s.toList ++ ',' :: t.toList) : Reads part (fs ++ gs) where
  line := by simp [hpart, hs.line, ht.line]
  fields := by
    rw [Text.split_append hpart, List.mapM_append, hs.fields, ht.fields]
    rfl

/-- Parts with commas between them have the fields of all parts. -/
theorem reads_intercalate {part : String} {parts : List String} {fields : List Field}
    {rest : List (List Field)} (h : List.Forall₂ Reads (part :: parts) (fields :: rest)) :
    Reads (String.intercalate "," (part :: parts)) (fields :: rest).flatten := by
  induction parts generalizing part fields rest with
  | nil =>
    cases h with
    | cons hpart hrest =>
      cases hrest
      rw [List.flatten_cons, List.flatten_nil, List.append_nil]
      exact hpart
  | cons next parts ih =>
    cases h with
    | cons hpart hrest =>
      cases hrest with
      | cons hnext hrest =>
        refine hpart.comma (ih (.cons hnext hrest)) ?_
        rw [String.toList_intercalate, String.toList_intercalate]
        exact (Text.intercalate_eq_join _).trans
          (congrArg (part.toList ++ ',' :: ·) (Text.intercalate_eq_join _).symm)

/-! ## Lines -/

/-- The rule that a line of a text is read as. -/
structure Denotes (line : String) (r : Rule) : Prop where
  whole : '\n' ∉ line.toList
  rule : Rule.read? line = some r

/-- A line denotes the rule that its fields make. -/
theorem Reads.denotes {line : String} {fields : List Field} {action : Action}
    (h : Reads line fields) (haction : fields.findSome? Field.action? = some action) :
    Denotes line (fields.foldl Rule.with { action }) where
  whole := h.line
  rule := by
    rw [Rule.read?, h.fields, Option.bind_eq_bind, Option.bind_some, haction]
    rfl

theorem Denotes.ne_empty {line : String} {r : Rule} (h : Denotes line r) : line ≠ "" := by
  intro hempty
  have hnone : Rule.read? "" = none := rfl
  have hrule := h.rule
  rw [hempty, hnone] at hrule
  exact absurd hrule (by simp)

/-- The fields of a flow for packets of which some conditions hold. -/
def Flow.fields (f : Flow) (conditions : List Condition) : List Field :=
  [.cookie f.cookie.toNat, .table 0, .priority f.priority] ++ conditions.map .condition ++
    [.action f.action]

theorem foldl_with_conditions (r : Rule) (cs : List Condition) :
    (cs.map Field.condition).foldl Rule.with r = { r with conditions := r.conditions ++ cs } := by
  induction cs generalizing r with
  | nil => simp
  | cons c cs ih => simp [ih, Rule.with]

theorem Flow.foldl_fields (f : Flow) (cs : List Condition) :
    (f.fields cs).foldl Rule.with { action := f.action } =
      ⟨f.cookie.toNat, 0, f.priority, cs, f.action⟩ := by
  rw [fields, List.foldl_append, List.foldl_append, foldl_with_conditions]
  rfl

theorem Flow.findSome?_fields (f : Flow) (cs : List Condition) :
    (f.fields cs).findSome? Field.action? = some f.action := by
  have hnone : (cs.map Field.condition).findSome? Field.action? = none := by
    simp [Field.action?]
  rw [fields, List.findSome?_append, List.findSome?_append, hnone]
  rfl

/-- The line of a flow denotes the rule with what the parts of its match are read as. -/
theorem Flow.denotes {f : Flow} {conditions : List (List Condition)}
    (hparts : List.Forall₂ (fun part cs => Reads part (cs.map Field.condition)) f.matching.parts
      conditions) :
    Denotes f.render ⟨f.cookie.toNat, 0, f.priority, conditions.flatten, f.action⟩ := by
  have hcookie := (written_cookieText f.cookie).reads "cookie" .cookie (by decide) fun _ => rfl
  have htable := (written_decimal 0).reads "table" .table (by decide) fun _ => rfl
  have hpriority := (written_decimal f.priority).reads "priority" .priority (by decide) fun _ => rfl
  have haction := (written_action f.action).reads "actions" .action (by decide) fun _ => rfl
  have hrest := List.rel_append (List.forall₂_map_right_iff.2 hparts) (.cons haction .nil)
  have hline : Reads f.render (f.fields conditions.flatten) := by
    have hall : Reads f.render _ :=
      reads_intercalate (.cons hcookie (.cons htable (.cons hpriority hrest)))
    simpa [fields, List.map_flatten] using hall
  rw [← foldl_fields]
  exact hline.denotes (findSome?_fields f _)

/-- Behind the last line of a text nothing is left. -/
theorem split_lines {lines : List String} (hlines : ∀ line ∈ lines, '\n' ∉ line.toList)
    (hne : lines ≠ []) :
    Text.split '\n' (String.intercalate "\n" lines ++ "\n") = lines ++ [""] := by
  have htext : (String.intercalate "\n" lines ++ "\n").toList =
      Text.join '\n' (lines.map String.toList) ++ '\n' :: [] := by
    rw [String.toList_append, String.toList_intercalate]
    exact congrArg (· ++ ['\n']) (Text.intercalate_eq_join _)
  have hpieces : Text.pieces '\n' (Text.join '\n' (lines.map String.toList)) =
      lines.map String.toList := by
    refine Text.pieces_join (by simpa using hne) fun cs hcs => ?_
    obtain ⟨line, hline, rfl⟩ := List.mem_map.1 hcs
    exact hlines line hline
  have hsame : String.ofList ∘ String.toList = id := funext fun _ => String.ofList_toList
  rw [Text.split, htext, Text.pieces_append_cons, hpieces, List.map_append, List.map_map, hsame,
    List.map_id]
  rfl

/-- Lines of which each denotes a rule are read as these rules. -/
theorem readRules?_lines {lines : List String} {rules : List Rule} (hne : lines ≠ [])
    (h : List.Forall₂ Denotes lines rules) :
    readRules? (String.intercalate "\n" lines ++ "\n") = some rules := by
  have hboth : List.Forall₂ (fun line r => ('\n' ∉ line.toList ∧ line ≠ "") ∧
      Rule.read? line = some r) lines rules :=
    h.imp fun _ _ hr => ⟨⟨hr.whole, hr.ne_empty⟩, hr.rule⟩
  obtain ⟨hlines, hrules⟩ := (List.forall₂_and_left _ _).1 hboth
  have hfilter : (lines ++ [""]).filter (fun line => line ≠ "") = lines := by
    have hself := List.filter_eq_self.2 fun line hline => decide_eq_true (hlines line hline).2
    rw [List.filter_append, hself]
    simp
  rw [readRules?, split_lines (fun line hline => (hlines line hline).1) hne, hfilter]
  exact mapM_eq_some_iff.2 hrules

end PodAttach.Switch
