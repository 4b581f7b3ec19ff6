import FirebirdScan.Client.ConnectionInfo

/-!
# `Client.ConnectionItems` — `key=value;key=value;…`

An item is a known key and a value, with blanks around the key, the `=` and the value. `Parse` takes a text for a
list of items only if it has a `;`; of an item it trims the front of the key and the back of the value.

`items_round_trip_iff` says what must hold of the blanks: none behind a key, and none in front of a value, but
for the items where they make no difference. A list of one item is taken for a path.
-/

namespace FirebirdScan

open Delimited FirebirdConnectionInfo

/-! ## Keys and fields -/

inductive ItemKey where
  | database
  | option (o : ConnOption)
deriving DecidableEq

def ItemKey.text : ItemKey → Bytes
  | .database => utf8 "database"
  | .option o => o.key

/-- What a field of the record holds. -/
inductive FieldValue where
  | bytes (s : Bytes)
  | int (n : Int32)
  | bool (b : Bool)
deriving DecidableEq

/-- The field that a key sets. -/
def FirebirdConnectionInfo.field (info : FirebirdConnectionInfo) : ItemKey → FieldValue
  | .database => .bytes info.database
  | .option .charset => .bytes info.charset
  | .option .role => .bytes info.role
  | .option .dialect => .int info.dialect
  | .option .user => .bytes info.user
  | .option .password => .bytes info.password
  | .option .noneEncoding => .bytes info.noneEncoding
  | .option .nonePushdown => .bool info.nonePushdown

/-- What a value stands for under a key. -/
def ItemKey.meaning (key : ItemKey) (val : Bytes) : FieldValue :=
  match key with
  | .option .dialect => .int (atoi val)
  | .option .nonePushdown => .bool (isTrue val)
  | _ => .bytes val

/-- The record with the field of a key set. -/
def FirebirdConnectionInfo.setField (info : FirebirdConnectionInfo) (key : ItemKey) (val : Bytes) :
    FirebirdConnectionInfo :=
  match key with
  | .database => { info with database := val }
  | .option o => info.withOptions [(o, val)]

theorem field_setField (info : FirebirdConnectionInfo) (key key' : ItemKey) (val : Bytes) :
    (info.setField key val).field key' = if key = key' then key.meaning val else info.field key' := by
  cases key with
  | database =>
      cases key' with
      | database => rfl
      | option o' => cases o' <;> rfl
  | option o =>
      cases key' with
      | database => rfl
      | option o' => cases o <;> cases o' <;> rfl

/-! ## Items -/

def Blank (s : Bytes) : Prop := ∀ c ∈ s, isBlank c = true

/-- An item as it may be written. -/
structure Item where
  key : ItemKey
  value : Bytes
  beforeKey : Bytes
  afterKey : Bytes
  beforeValue : Bytes
  afterValue : Bytes
  beforeKey_blank : Blank beforeKey
  afterKey_blank : Blank afterKey
  beforeValue_blank : Blank beforeValue
  afterValue_blank : Blank afterValue
  one_item : 0x3B ∉ value
  no_leading : value.head?.any isBlank = false
  no_trailing : value.getLast?.any isBlank = false
  accepted : key = .option .nonePushdown → AcceptedBool value

namespace Item

/-- The key and its blanks, and the value and its blanks. -/
def keyText (it : Item) : Bytes := it.beforeKey ++ it.key.text ++ it.afterKey
def valueText (it : Item) : Bytes := it.beforeValue ++ it.value ++ it.afterValue

def text (it : Item) : Bytes := it.keyText ++ [0x3D] ++ it.valueText

end Item

/-- The text of a list of items. -/
def itemsText (items : List Item) : Bytes := join 0x3B (items.map Item.text)

/-- The record has the fields of the items and is the default elsewhere. -/
structure Assigned (items : List Item) (info : FirebirdConnectionInfo) : Prop where
  field : ∀ key, info.field key =
    match items.find? (·.key = key) with
    | some it => key.meaning it.value
    | none => ({} : FirebirdConnectionInfo).field key
  interval : info.dummyPacketIntervalSecs = 0

/-- The blanks of the item do no harm. Those behind the key hide it, so the value must be the default; those in
    front of a value become part of it, which only the number does not mind. -/
def Item.Harmless (it : Item) : Prop :=
  if it.afterKey = [] then it.beforeValue = [] ∨ it.value = [] ∨ it.key = .option .dialect
  else it.key.meaning it.value = ({} : FirebirdConnectionInfo).field it.key

/-! ## What is read of an item -/

namespace Item

/-- The value under which `Parse` sets the key, if it knows the key. -/
def read (it : Item) : Option Bytes :=
  if it.afterKey = [] then some (if it.value = [] then [] else it.beforeValue ++ it.value) else none

variable {it : Item}

theorem not_mem_blank {s : Bytes} (h : Blank s) {c : UInt8} (hc : isBlank c = false) : c ∉ s := by
  intro hmem
  rw [h c hmem] at hc
  cases hc

theorem key_plain (key : ItemKey) :
    0x3B ∉ key.text ∧ 0x3D ∉ key.text ∧ (∃ c s, key.text = c :: s ∧ isBlank c = false ∧ c ≠ 0x66) ∧
      ∀ c ∈ key.text, isBlank c = false := by
  cases key with
  | database => exact ⟨by decide +kernel, by decide +kernel, ⟨_, _, rfl, rfl, by decide⟩, by decide +kernel⟩
  | option o =>
      cases o <;>
        exact ⟨by decide +kernel, by decide +kernel, ⟨_, _, rfl, rfl, by decide⟩, by decide +kernel⟩

theorem key_trimmed (it : Item) : it.keyText.dropWhile isBlank = it.key.text ++ it.afterKey := by
  obtain ⟨-, -, ⟨c, s, hkey, hc, -⟩, -⟩ := key_plain it.key
  unfold keyText
  rw [List.append_assoc, List.dropWhile_append_of_pos it.beforeKey_blank, hkey, List.cons_append,
    List.dropWhile_cons_of_neg (by simp [hc])]

theorem value_trimmed (it : Item) :
    it.valueText.rdropWhile isBlank = if it.value = [] then [] else it.beforeValue ++ it.value := by
  unfold valueText
  rw [rdropWhile_append _ it.afterValue_blank]
  by_cases h : it.value = []
  · rw [if_pos h, h, List.append_nil, List.rdropWhile_eq_nil_iff]
    exact it.beforeValue_blank
  · have hlast : ∀ c, it.value.getLast? = some c → isBlank c = false := by
      intro c hc
      have h := it.no_trailing
      rwa [hc] at h
    rw [if_neg h, rdropWhile_eq_self h hlast]

/-- No `=` stands in front of that of the item. -/
theorem splitFirst_text (it : Item) : splitFirst 0x3D it.text = some (it.keyText, it.valueText) := by
  obtain ⟨-, hkey, -, -⟩ := key_plain it.key
  have hbefore := not_mem_blank it.beforeKey_blank (c := 0x3D) (by decide)
  have hafter := not_mem_blank it.afterKey_blank (c := 0x3D) (by decide)
  unfold text
  rw [List.append_assoc, List.singleton_append]
  exact splitFirst_append (by simp [keyText, hbefore, hkey, hafter]) _

/-- A key with a blank in it is no key. -/
theorem setKey_unknown (info : FirebirdConnectionInfo) {key : Bytes} (val : Bytes) {c : UInt8} (hc : c ∈ key)
    (hblank : isBlank c = true) :
    (if key = utf8 "database" then Except.ok { info with database := val } else info.setOption key val) =
      .ok info := by
  have hne : ∀ k : ItemKey, key ≠ k.text := by
    rintro k rfl
    obtain ⟨-, -, -, hplain⟩ := key_plain k
    rw [hplain c hc] at hblank
    cases hblank
  have hdatabase : key ≠ utf8 "database" := hne .database
  rw [if_neg hdatabase]
  exact setOption_unknown info val fun o => hne (.option o)

theorem setItem_text (info : FirebirdConnectionInfo) (it : Item) :
    setItem info it.text =
      if it.key.text ++ it.afterKey = utf8 "database" then
        .ok { info with database := if it.value = [] then [] else it.beforeValue ++ it.value }
      else info.setOption (it.key.text ++ it.afterKey)
        (if it.value = [] then [] else it.beforeValue ++ it.value) := by
  unfold setItem
  rw [splitFirst_text]
  dsimp only
  rw [key_trimmed, value_trimmed]

/-- An item whose key is hidden by a blank sets nothing. -/
theorem setItem_unread (info : FirebirdConnectionInfo) (h : it.read = none) : setItem info it.text = .ok info := by
  have hafter : it.afterKey ≠ [] := by
    intro hnil
    rw [read, if_pos hnil] at h
    cases h
  obtain ⟨c, s, hcons⟩ := List.exists_cons_of_ne_nil hafter
  have hmem : c ∈ it.afterKey := by simp [hcons]
  rw [setItem_text]
  exact setKey_unknown info _ (List.mem_append_right _ hmem) (it.afterKey_blank c hmem)

theorem read_eq_some {val : Bytes} (h : it.read = some val) :
    it.afterKey = [] ∧ (if it.value = [] then [] else it.beforeValue ++ it.value) = val := by
  unfold read at h
  split_ifs at h with hafter hvalue
  · exact ⟨hafter, by rw [if_pos hvalue]; exact Option.some.inj h⟩
  · exact ⟨hafter, by rw [if_neg hvalue]; exact Option.some.inj h⟩

/-- Any other item sets its field, or is refused. -/
theorem setItem_read (info : FirebirdConnectionInfo) {val : Bytes} (h : it.read = some val)
    (haccepted : it.key = .option .nonePushdown → AcceptedBool val) :
    setItem info it.text = .ok (info.setField it.key val) := by
  obtain ⟨hafter, hval⟩ := read_eq_some h
  rw [setItem_text, hafter, List.append_nil, hval]
  cases hkey : it.key with
  | database => exact if_pos rfl
  | option o =>
      have hne : (ItemKey.option o).text ≠ utf8 "database" := by cases o <;> decide
      rw [if_neg hne]
      refine setOption_key info fun ho => haccepted ?_
      rw [hkey, ho]

theorem setItem_refused (info : FirebirdConnectionInfo) {val : Bytes} (h : it.read = some val)
    (hkey : it.key = .option .nonePushdown) (hrefused : ¬AcceptedBool val) :
    ∃ e, setItem info it.text = .error e := by
  obtain ⟨hafter, hval⟩ := read_eq_some h
  have hne : (ItemKey.option .nonePushdown).text ≠ utf8 "database" := by decide
  rw [setItem_text, hafter, List.append_nil, hval, hkey, if_neg hne]
  unfold AcceptedBool FirebirdConnectionInfo.isTrue at hrefused
  simp only [Bool.or_eq_true, decide_eq_true_eq, not_or] at hrefused
  show ∃ e, (parseConnStringBool (utf8 "none_pushdown") val).map _ = .error e
  unfold parseConnStringBool
  rw [if_neg (by tauto), if_neg (by tauto)]
  exact ⟨_, rfl⟩

end Item

/-! ## Reading the list -/

section Items

variable {items : List Item}

/-- Every value that is read is taken. -/
def Taken (items : List Item) : Prop :=
  ∀ it ∈ items, ∀ val, it.read = some val → it.key = .option .nonePushdown → AcceptedBool val

/-- What the fold leaves in a field: what was read of the item with its key. -/
def fieldRead (items : List Item) (info : FirebirdConnectionInfo) (key : ItemKey) : FieldValue :=
  match items.find? (·.key = key) with
  | some it => it.read.elim (info.field key) key.meaning
  | none => info.field key

/-- One item: it sets the field of its own key, or nothing. -/
theorem setItem_fields {it : Item} (info : FirebirdConnectionInfo)
    (h : ∀ val, it.read = some val → it.key = .option .nonePushdown → AcceptedBool val) :
    ∃ info', setItem info it.text = .ok info' ∧
      info'.dummyPacketIntervalSecs = info.dummyPacketIntervalSecs ∧
      ∀ key, info'.field key =
        if it.key = key then it.read.elim (info.field key) key.meaning else info.field key := by
  cases hread : it.read with
  | none =>
      refine ⟨info, it.setItem_unread info hread, rfl, ?_⟩
      intro key
      rw [Option.elim_none, ite_self]
  | some val =>
      refine ⟨info.setField it.key val, it.setItem_read info hread (h val hread), ?_, fun key => ?_⟩
      · cases it.key <;> rfl
      · rw [field_setField, Option.elim_some]
        by_cases hkey : it.key = key
        · rw [if_pos hkey, if_pos hkey, hkey]
        · rw [if_neg hkey, if_neg hkey]

/-- All items. -/
theorem foldlM_setItem (hnodup : (items.map Item.key).Nodup) (htaken : Taken items) (info : FirebirdConnectionInfo) :
    ∃ info', (items.map Item.text).foldlM setItem info = .ok info' ∧
      info'.dummyPacketIntervalSecs = info.dummyPacketIntervalSecs ∧
      ∀ key, info'.field key = fieldRead items info key := by
  induction items generalizing info with
  | nil => exact ⟨info, rfl, rfl, fun key => rfl⟩
  | cons it items ih =>
      rw [List.map_cons, List.nodup_cons] at hnodup
      obtain ⟨info₁, hset, hinterval₁, hfields₁⟩ := setItem_fields info (htaken it List.mem_cons_self)
      obtain ⟨info', hfold, hinterval, hfields⟩ :=
        ih hnodup.2 (fun it' hit' => htaken it' (List.mem_cons_of_mem _ hit')) info₁
      refine ⟨info', ?_, hinterval.trans hinterval₁, fun key => ?_⟩
      · rw [List.map_cons, List.foldlM_cons, hset]
        exact hfold
      · rw [hfields, fieldRead, fieldRead, List.find?_cons]
        by_cases hkey : it.key = key
        · -- no later item has the key
          have hnone : items.find? (·.key = key) = none := by
            rw [List.find?_eq_none]
            intro it' hit' heq
            refine hnodup.1 (List.mem_map.mpr ⟨it', hit', ?_⟩)
            rw [hkey]
            exact of_decide_eq_true heq
          rw [hnone, decide_eq_true hkey, hfields₁, if_pos hkey]
        · rw [decide_eq_false hkey, hfields₁, if_neg hkey]

/-- A value that is refused stops the fold. -/
theorem foldlM_refused (h : ¬Taken items) (info : FirebirdConnectionInfo) :
    ∃ e, (items.map Item.text).foldlM setItem info = .error e := by
  induction items generalizing info with
  | nil => exact absurd (fun it hit => absurd hit List.not_mem_nil) h
  | cons it items ih =>
      rw [List.map_cons, List.foldlM_cons]
      by_cases hit : ∀ val, it.read = some val → it.key = .option .nonePushdown → AcceptedBool val
      · obtain ⟨info₁, hset, -, -⟩ := setItem_fields info hit
        rw [hset]
        refine ih (fun htaken => h fun it' hit' => ?_) info₁
        rcases List.mem_cons.mp hit' with rfl | hit'
        · exact hit
        · exact htaken it' hit'
      · simp only [not_forall] at hit
        obtain ⟨val, hread, hkey, hrefused⟩ := hit
        obtain ⟨e, he⟩ := it.setItem_refused info hread hkey hrefused
        rw [he]
        exact ⟨e, rfl⟩

/-! ## Harmless blanks -/

/-- Blanks in front of a number are skipped. -/
theorem atoi_blank {s : Bytes} (hs : Blank s) (val : Bytes) : atoi (s ++ val) = atoi val := by
  have hspace : ∀ c ∈ s, isSpace c = true := by
    intro c hc
    have hblank := hs c hc
    unfold isBlank at hblank
    unfold isSpace
    simp only [Bool.or_eq_true, decide_eq_true_eq, Bool.and_eq_true] at hblank ⊢
    rcases hblank with rfl | rfl
    · exact .inl rfl
    · exact .inr ⟨by decide, by decide⟩
  unfold atoi strtol
  rw [List.dropWhile_append_of_pos hspace]

/-- No blank stands in front of a truth value. -/
theorem accepted_not_blank {c : UInt8} {s : Bytes} (hc : isBlank c = true) : ¬AcceptedBool (c :: s) := by
  unfold isBlank at hc
  simp only [Bool.or_eq_true, decide_eq_true_eq] at hc
  unfold AcceptedBool FirebirdConnectionInfo.isTrue
  simp only [Bool.or_eq_true, decide_eq_true_eq]
  rcases hc with rfl | rfl
  · rintro ((h | h) | h | h) <;> cases h
  · rintro ((h | h) | h | h) <;> cases h

/-- A value is changed by what is put in front of it, but for a number. -/
theorem meaning_append_iff {key : ItemKey} {s val : Bytes} (hs : Blank s)
    (haccepted : key = .option .nonePushdown → AcceptedBool (s ++ val)) :
    key.meaning (s ++ val) = key.meaning val ↔ s = [] ∨ key = .option .dialect := by
  cases key with
  | database => simp [ItemKey.meaning]
  | option o =>
      cases o with
      | dialect => simp [ItemKey.meaning, atoi_blank hs]
      | nonePushdown =>
          have hnil : s = [] := by
            cases s with
            | nil => rfl
            | cons c s => exact absurd (haccepted rfl) (accepted_not_blank (hs c List.mem_cons_self))
          simp [hnil]
      | _ => simp [ItemKey.meaning]

/-- What was read of an item is its value exactly if its blanks are harmless. -/
theorem harmless_iff {it : Item}
    (htaken : ∀ val, it.read = some val → it.key = .option .nonePushdown → AcceptedBool val) :
    it.read.elim (({} : FirebirdConnectionInfo).field it.key) it.key.meaning = it.key.meaning it.value ↔
      it.Harmless := by
  unfold Item.Harmless
  by_cases hafter : it.afterKey = []
  · rw [if_pos hafter]
    by_cases hvalue : it.value = []
    · rw [Item.read, if_pos hafter, if_pos hvalue, Option.elim_some, hvalue]
      exact ⟨fun _ => .inr (.inl rfl), fun _ => rfl⟩
    · have hread : it.read = some (it.beforeValue ++ it.value) := by
        rw [Item.read, if_pos hafter, if_neg hvalue]
      rw [hread, Option.elim_some, meaning_append_iff it.beforeValue_blank (htaken _ hread)]
      simp [hvalue]
  · rw [if_neg hafter, Item.read, if_neg hafter, Option.elim_none]
    exact eq_comm

/-- Harmless blanks let every value be taken. -/
theorem taken_of_harmless (h : ∀ it ∈ items, it.Harmless) : Taken items := by
  intro it hit val hread hkey
  obtain ⟨hafter, hval⟩ := Item.read_eq_some hread
  have hharmless := h it hit
  have haccepted := it.accepted hkey
  have hvalue : it.value ≠ [] := by
    intro hnil
    rw [hnil] at haccepted
    revert haccepted
    decide
  unfold Item.Harmless at hharmless
  rw [if_pos hafter] at hharmless
  rcases hharmless with hnil | hnil | hdialect
  · rw [if_neg hvalue, hnil, List.nil_append] at hval
    rwa [← hval]
  · exact absurd hnil hvalue
  · rw [hkey] at hdialect
    cases hdialect

/-! ## The text of the list -/

theorem text_line (it : Item) : 0x3B ∉ it.text ∧ it.text ≠ [] := by
  obtain ⟨hkey, -, -, -⟩ := Item.key_plain it.key
  have h₁ := Item.not_mem_blank it.beforeKey_blank (c := 0x3B) (by decide)
  have h₂ := Item.not_mem_blank it.afterKey_blank (c := 0x3B) (by decide)
  have h₃ := Item.not_mem_blank it.beforeValue_blank (c := 0x3B) (by decide)
  have h₄ := Item.not_mem_blank it.afterValue_blank (c := 0x3B) (by decide)
  constructor
  · simp [Item.text, Item.keyText, Item.valueText, hkey, h₁, h₂, h₃, h₄, it.one_item]
  · simp [Item.text]

theorem lines_itemsText (items : List Item) : lines 0x3B (itemsText items) = items.map Item.text := by
  apply lines_join
  intro l hl
  obtain ⟨it, -, rfl⟩ := List.mem_map.mp hl
  exact text_line it

theorem semicolon_mem_iff (items : List Item) : 0x3B ∈ itemsText items ↔ 2 ≤ items.length := by
  have hlines : ∀ l ∈ items.map Item.text, 0x3B ∉ l := by
    intro l hl
    obtain ⟨it, -, rfl⟩ := List.mem_map.mp hl
    exact (text_line it).1
  have h := delimiter_mem_join hlines
  rwa [List.length_map] at h

/-- No list of items is a URL: no key starts with an `f`. -/
theorem not_scheme (items : List Item) : ¬scheme <+: itemsText items := by
  rintro ⟨rest, hrest⟩
  have hhead : (itemsText items).head? = some 0x66 := by
    rw [← hrest]
    rfl
  cases items with
  | nil => cases hhead
  | cons it items =>
      obtain ⟨-, -, ⟨c, s, hkey, -, hc⟩, -⟩ := Item.key_plain it.key
      have hitem : ∃ tail, itemsText (it :: items) = it.text ++ tail := by
        cases items with
        | nil => exact ⟨[], (List.append_nil _).symm⟩
        | cons it' items => exact ⟨_, rfl⟩
      obtain ⟨tail, htail⟩ := hitem
      rw [htail, Item.text, Item.keyText, hkey] at hhead
      cases hbefore : it.beforeKey with
      | nil =>
          rw [hbefore] at hhead
          exact hc (Option.some.inj hhead)
      | cons b s' =>
          have hblank := it.beforeKey_blank b (by rw [hbefore]; exact List.mem_cons_self)
          rw [hbefore] at hhead
          obtain rfl := Option.some.inj hhead
          cases hblank

theorem parse_items (h : 2 ≤ items.length) :
    parse (itemsText items) = (items.map Item.text).foldlM setItem {} := by
  have hequals : 0x3D ∈ itemsText items := by
    obtain ⟨it, hit⟩ := List.exists_mem_of_length_pos (show 0 < items.length by omega)
    exact (mem_join (by decide)).mpr ⟨it.text, List.mem_map.mpr ⟨it, hit, rfl⟩, by simp [Item.text]⟩
  rw [parse, if_neg (not_scheme items), if_pos ⟨hequals, (semicolon_mem_iff items).mpr h⟩, parseItems,
    lines_itemsText]

/-- A list of one item is a path. -/
theorem parse_single (it : Item) : parse (itemsText [it]) = .ok { database := it.text } := by
  have hsemicolon : 0x3B ∉ itemsText [it] := (text_line it).1
  rw [parse, if_neg (not_scheme [it]), if_neg fun h => hsemicolon h.2]
  rfl

theorem not_assigned_single (it : Item) : ¬Assigned [it] { database := it.text } := by
  intro h
  have hdatabase := h.field .database
  rw [List.find?_singleton] at hdatabase
  by_cases hkey : it.key = .database
  · rw [decide_eq_true hkey, if_pos rfl] at hdatabase
    -- the text is longer than the value
    have hlen := congrArg List.length (FieldValue.bytes.inj hdatabase)
    simp only [Item.text, Item.valueText, List.length_append, List.length_singleton] at hlen
    omega
  · rw [decide_eq_false hkey, if_neg (by decide)] at hdatabase
    exact (text_line it).2 (FieldValue.bytes.inj hdatabase)

theorem find?_key (hnodup : (items.map Item.key).Nodup) {it : Item} (hit : it ∈ items) :
    items.find? (·.key = it.key) = some it := by
  induction items with
  | nil => exact absurd hit List.not_mem_nil
  | cons it' items ih =>
      rw [List.map_cons, List.nodup_cons] at hnodup
      rw [List.find?_cons]
      rcases List.mem_cons.mp hit with rfl | hit'
      · rw [decide_eq_true rfl]
      · have hne : it'.key ≠ it.key := fun heq => hnodup.1 (List.mem_map.mpr ⟨it, hit', heq.symm⟩)
        rw [decide_eq_false hne]
        exact ih hnodup.2 hit'

/-- The fields that were read are those of the items exactly if all blanks are harmless. -/
theorem fieldRead_iff (hnodup : (items.map Item.key).Nodup) (htaken : Taken items) :
    (∀ key, fieldRead items {} key =
      match items.find? (·.key = key) with
      | some it => key.meaning it.value
      | none => ({} : FirebirdConnectionInfo).field key) ↔ ∀ it ∈ items, it.Harmless := by
  constructor
  · intro h it hit
    have hkey := h it.key
    rw [fieldRead, find?_key hnodup hit] at hkey
    exact (harmless_iff (htaken it hit)).mp hkey
  · intro h key
    rw [fieldRead]
    cases hfind : items.find? (·.key = key) with
    | none => rfl
    | some it =>
        have hit := List.mem_of_find?_eq_some hfind
        have hkey := List.find?_some hfind
        obtain rfl : it.key = key := of_decide_eq_true hkey
        exact (harmless_iff (htaken it hit)).mpr (h it hit)

end Items

/-- **Which lists of items are read back as they were written**: those of two items or more whose blanks are all
    harmless. -/
theorem items_round_trip_iff {items : List Item} (hne : items ≠ []) (hnodup : (items.map Item.key).Nodup) :
    (∃ info, parse (itemsText items) = .ok info ∧ Assigned items info) ↔
      2 ≤ items.length ∧ ∀ it ∈ items, it.Harmless := by
  by_cases hlen : 2 ≤ items.length
  · rw [parse_items hlen]
    by_cases htaken : Taken items
    · obtain ⟨info', hfold, hinterval, hfields⟩ := foldlM_setItem hnodup htaken {}
      rw [hfold, ← fieldRead_iff hnodup htaken]
      constructor
      · rintro ⟨info, hinfo, hassigned⟩
        obtain rfl := Except.ok.inj hinfo
        exact ⟨hlen, fun key => (hfields key).symm.trans (hassigned.field key)⟩
      · rintro ⟨-, h⟩
        exact ⟨info', rfl, fun key => (hfields key).trans (h key), hinterval⟩
    · obtain ⟨e, he⟩ := foldlM_refused htaken {}
      rw [he]
      constructor
      · rintro ⟨info, hinfo, -⟩
        cases hinfo
      · rintro ⟨-, h⟩
        exact absurd (taken_of_harmless h) htaken
  · constructor
    · rintro ⟨info, hinfo, hassigned⟩
      match items with
      | [] => exact absurd rfl hne
      | [it] =>
          rw [parse_single] at hinfo
          obtain rfl := Except.ok.inj hinfo
          exact absurd hassigned (not_assigned_single it)
      | _ :: _ :: _ => exact absurd (show 2 ≤ _ + 2 by omega) hlen
    · rintro ⟨h, -⟩
      exact absurd h hlen

theorem blank_nil : Blank [] := fun _ h => by cases h

theorem blank_space : Blank [0x20] := fun c h => by
  obtain rfl := List.mem_singleton.mp h
  rfl

theorem not_pushdown {o : ConnOption} (h : o ≠ .nonePushdown) (val : Bytes) :
    ItemKey.option o = .option .nonePushdown → AcceptedBool val := by
  intro hkey
  exact absurd (ItemKey.option.inj hkey) h

theorem user_ne : ConnOption.user ≠ .nonePushdown := by decide

theorem dialect_ne : ConnOption.dialect ≠ .nonePushdown := by decide

theorem app_one_item : 0x3B ∉ utf8 "app" := by decide

theorem dialect_one_item : 0x3B ∉ utf8 "1" := by decide

/-- `user=app` with blanks in three places. -/
def userItem (afterKey : Bytes) (h : Blank afterKey) : Item where
  key := .option .user
  value := utf8 "app"
  beforeKey := [0x20]
  afterKey := afterKey
  beforeValue := []
  afterValue := [0x20]
  beforeKey_blank := blank_space
  afterKey_blank := h
  beforeValue_blank := blank_nil
  afterValue_blank := blank_space
  one_item := app_one_item
  no_leading := rfl
  no_trailing := rfl
  accepted := not_pushdown user_ne (utf8 "app")

/-- `dialect= 1` -/
def dialectItem : Item where
  key := .option .dialect
  value := utf8 "1"
  beforeKey := []
  afterKey := []
  beforeValue := [0x20]
  afterValue := []
  beforeKey_blank := blank_nil
  afterKey_blank := blank_nil
  beforeValue_blank := blank_space
  afterValue_blank := blank_nil
  one_item := dialect_one_item
  no_leading := rfl
  no_trailing := rfl
  accepted := not_pushdown dialect_ne (utf8 "1")

/-- The blanks of ` user=app ;dialect= 1` are harmless. -/
theorem items_round_trip_harmless :
    ∃ info, parse (itemsText [userItem [] blank_nil, dialectItem]) = .ok info ∧
      Assigned [userItem [] blank_nil, dialectItem] info := by
  refine (items_round_trip_iff (List.cons_ne_nil _ _) (by decide)).mpr ⟨le_rfl, ?_⟩
  intro it hit
  rcases List.mem_cons.mp hit with rfl | hit
  · exact .inl rfl
  · obtain rfl := List.mem_singleton.mp hit
    exact .inr (.inr rfl)

/-- **Two texts that are misread**: ` user =app ;dialect= 1`, of which the user is ignored, and `dialect= 1`,
    which is taken for a path. -/
theorem misread_items :
    parse (itemsText [userItem [0x20] blank_space, dialectItem]) = .ok { dialect := 1 } ∧
    parse (itemsText [dialectItem]) = .ok { database := utf8 "dialect= 1" } ∧
    ¬∀ items : List Item, items ≠ [] → (items.map Item.key).Nodup →
      ∃ info, parse (itemsText items) = .ok info ∧ Assigned items info := by
  have hblank : parse (itemsText [userItem [0x20] blank_space, dialectItem]) = .ok { dialect := 1 } := by
    decide +kernel
  refine ⟨hblank, by decide +kernel, ?_⟩
  intro h
  obtain ⟨info, hinfo, hassigned⟩ :=
    h [userItem [0x20] blank_space, dialectItem] (List.cons_ne_nil _ _) (by decide)
  obtain rfl := Except.ok.inj (hblank.symm.trans hinfo)
  have huser := hassigned.field (.option .user)
  revert huser
  decide

end FirebirdScan
