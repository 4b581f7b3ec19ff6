import FirebirdScan.Lib.TreeWalk
import FirebirdScan.Lib.Utf8

/-!
# `Lib.YamlText` — reading block documents (YAML 1.2)

A reader for block mappings, block sequences and scalars that fit on a line: double-quoted ones with the escapes of
YAML, words of letters, digits and underscores, and the empty sequence `[]`. Keys are words. A text that has
anything else has no reading.

Each line gives tokens, and each token has a column: what stands deeper than a dash or a key belongs to it
(`forest`). `Lexes` and `Means` are the rules for texts that are put together from parts.
-/

namespace YamlText

open TreeWalk

abbrev Text := List UInt8

/-! ## Nodes -/

/-- What a text denotes. A quoted scalar is a string; what a word stands for is left to the schema. -/
inductive Node where
  | null
  | word (text : Text)
  | string (text : Text)
  | sequence (items : List Node)
  | mapping (entries : List (Text × Node))

inductive Item where
  | dash
  | key (name : Text)
  | scalar (value : Node)

structure Token where
  column : Nat
  item : Item

/-! ## Scalars -/

def hexDigit (b : UInt8) : Option Nat :=
  if 0x30 ≤ b ∧ b ≤ 0x39 then some (b.toNat - 0x30)
  else if 0x41 ≤ b ∧ b ≤ 0x46 then some (b.toNat - 0x37)
  else if 0x61 ≤ b ∧ b ≤ 0x66 then some (b.toNat - 0x57)
  else none

/-- The character with a number in hexadecimal digits. -/
def hexCharacter (digits : Text) : Option Text := do
  let cp ← digits.foldlM (fun n b => (hexDigit b).map fun d => 16 * n + d) 0
  if Utf8.IsScalar cp then some (Utf8.encodeScalar cp) else none

/-- The escapes of one letter: `\0 \a \b \t \n \v \f \r \e`, the blank, `\" \/ \\`, and the breaks and blanks of
    Unicode `\N \_ \L \P`. -/
def letterEscape (b : UInt8) : Option Nat :=
  [(0x30, 0x00), (0x61, 0x07), (0x62, 0x08), (0x74, 0x09), (0x09, 0x09), (0x6E, 0x0A), (0x76, 0x0B), (0x66, 0x0C),
    (0x72, 0x0D), (0x65, 0x1B), (0x20, 0x20), (0x22, 0x22), (0x2F, 0x2F), (0x5C, 0x5C), (0x4E, 0x85), (0x5F, 0xA0),
    (0x4C, 0x2028), (0x50, 0x2029)].lookup b

/-- A double-quoted scalar, behind its first quote and to the end of the line. -/
def readDoubleQuoted : Text → Option Text
  | [] => none
  | b :: s =>
      if b = 0x22 then if s = [] then some [] else none
      else if b = 0x5C then
        match s with
        | [] => none
        | c :: s =>
            if c = 0x78 then
              match s with
              | d₁ :: d₂ :: s => do some ((← hexCharacter [d₁, d₂]) ++ (← readDoubleQuoted s))
              | _ => none
            else if c = 0x75 then
              match s with
              | d₁ :: d₂ :: d₃ :: d₄ :: s => do some ((← hexCharacter [d₁, d₂, d₃, d₄]) ++ (← readDoubleQuoted s))
              | _ => none
            else if c = 0x55 then
              match s with
              | d₁ :: d₂ :: d₃ :: d₄ :: d₅ :: d₆ :: d₇ :: d₈ :: s => do
                  some ((← hexCharacter [d₁, d₂, d₃, d₄, d₅, d₆, d₇, d₈]) ++ (← readDoubleQuoted s))
              | _ => none
            else do some (Utf8.encodeScalar (← letterEscape c) ++ (← readDoubleQuoted s))
      else if b < 0x20 ∧ b ≠ 0x09 then none
      else (readDoubleQuoted s).map (b :: ·)

/-- A character of a word. -/
def isWord (b : UInt8) : Bool :=
  (0x30 ≤ b && b ≤ 0x39) || (0x41 ≤ b && b ≤ 0x5A) || (0x61 ≤ b && b ≤ 0x7A) || b = 0x5F

/-- A scalar, to the end of the line. -/
def readScalar (s : Text) : Option Node :=
  if s.head? = some 0x22 then (readDoubleQuoted s.tail).map .string
  else if s = [0x5B, 0x5D] then some (.sequence [])
  else if s ≠ [] ∧ s.all isWord then some (.word s)
  else none

/-! ## Lines -/

/-- An entry `key:` or `key: value`, or a scalar by itself. -/
def lexEntry (column : Nat) (s : Text) : Option (List Token) :=
  let name := s.takeWhile isWord
  let rest := s.dropWhile isWord
  if name ≠ [] ∧ rest = [0x3A] then some [⟨column, .key name⟩]
  else if name ≠ [] ∧ rest.take 2 = [0x3A, 0x20] then
    (readScalar (rest.drop 2)).map fun value =>
      [⟨column, .key name⟩, ⟨column + name.length + 2, .scalar value⟩]
  else (readScalar s).map fun value => [⟨column, .scalar value⟩]

/-- The tokens of a line, from some column on: blanks and dashes, then an entry. -/
def lexLine (column : Nat) : Text → Option (List Token)
  | [] => some []
  | b :: s =>
      if b = 0x20 then lexLine (column + 1) s
      else if b = 0x2D then
        match s with
        | [] => some [⟨column, .dash⟩]
        | c :: s => if c = 0x20 then (lexLine (column + 2) s).map (⟨column, .dash⟩ :: ·) else none
      else lexEntry column (b :: s)

/-- The tokens of a text. -/
def lex (text : Text) : Option (List Token) := do
  let lines ← (text.splitOn 0x0A).mapM (lexLine 0)
  some lines.flatten

/-! ## Blocks -/

/-- The column of a tree is that of its first token. -/
def column (t : RoseTree Token) : Nat :=
  match t with
  | .node token _ => token.column

/-- A token in front of some trees takes those that stand deeper. -/
def graft (token : Token) (trees : List (RoseTree Token)) : List (RoseTree Token) :=
  .node token (trees.takeWhile fun t => token.column < column t) ::
    trees.dropWhile fun t => token.column < column t

/-- The trees of some tokens. -/
def forest (tokens : List Token) : List (RoseTree Token) := tokens.foldr graft []

/-- An item of the sequence at a column. -/
def itemAt (column : Nat) : Token × Node → Option Node
  | (⟨c, .dash⟩, value) => if c = column then some value else none
  | _ => none

/-- An entry of the mapping at a column. -/
def entryAt (column : Nat) : Token × Node → Option (Text × Node)
  | (⟨c, .key name⟩, value) => if c = column then some (name, value) else none
  | _ => none

/-- The node of some tokens, each with the node below it: a scalar, a sequence, or a mapping with distinct keys. -/
def assemble : List (Token × Node) → Option Node
  | [] => some .null
  | [(⟨_, .scalar value⟩, .null)] => some value
  | (⟨c, .dash⟩, first) :: parts => do
      some (.sequence (← ((⟨c, .dash⟩, first) :: parts).mapM (itemAt c)))
  | (⟨c, .key name⟩, first) :: parts => do
      let entries ← ((⟨c, .key name⟩, first) :: parts).mapM (entryAt c)
      if (entries.map Prod.fst).Nodup then some (.mapping entries) else none
  | _ => none

mutual

/-- The root of a tree, with the node below it. -/
def part : RoseTree Token → Option (Token × Node)
  | .node token children => do
      let parts ← partsOf children
      some (token, ← assemble parts)

def partsOf : List (RoseTree Token) → Option (List (Token × Node))
  | [] => some []
  | t :: ts => do some ((← part t) :: (← partsOf ts))

end

/-- The node of some trees. -/
def nodeOf (trees : List (RoseTree Token)) : Option Node := do assemble (← partsOf trees)

/-- The node that a text denotes. -/
def read (text : Text) : Option Node := do nodeOf (forest (← lex text))

/-! ## Parts of a node -/

namespace Node

/-- The value of a key. -/
def get (key : Text) : Node → Option Node
  | mapping entries => entries.lookup key
  | _ => none

def items : Node → Option (List Node)
  | sequence items => some items
  | _ => none

def asString : Node → Option Text
  | string text => some text
  | _ => none

def asWord : Node → Option Text
  | word text => some text
  | _ => none

end Node

/-! ## Rules for scalars -/

theorem readDoubleQuoted_plain {b : UInt8} {s : Text} (hlow : 0x20 ≤ b) (hquote : b ≠ 0x22) (hescape : b ≠ 0x5C) :
    readDoubleQuoted (b :: s) = (readDoubleQuoted s).map (b :: ·) := by
  have hprints : ¬(b < 0x20 ∧ b ≠ 0x09) := fun h => absurd h.1 (UInt8.not_lt.mpr hlow)
  rw [readDoubleQuoted.eq_def]
  simp only [if_neg hquote, if_neg hescape, if_neg hprints]

theorem readDoubleQuoted_letter {c : UInt8} {cp : Nat} {s : Text} (h : letterEscape c = some cp) :
    readDoubleQuoted (0x5C :: c :: s) = (readDoubleQuoted s).map (Utf8.encodeScalar cp ++ ·) := by
  have hx : c ≠ 0x78 := by
    rintro rfl
    cases h
  have hu : c ≠ 0x75 := by
    rintro rfl
    cases h
  have hU : c ≠ 0x55 := by
    rintro rfl
    cases h
  have hquote : (0x5C : UInt8) ≠ 0x22 := by decide
  rw [readDoubleQuoted.eq_def]
  simp only [if_neg hquote, if_neg hx, if_neg hu, if_neg hU, h]
  rcases readDoubleQuoted s with _ | text
  · rfl
  · rfl

theorem readDoubleQuoted_hex {d₁ d₂ : UInt8} {character s : Text} (h : hexCharacter [d₁, d₂] = some character) :
    readDoubleQuoted (0x5C :: 0x78 :: d₁ :: d₂ :: s) = (readDoubleQuoted s).map (character ++ ·) := by
  have hquote : (0x5C : UInt8) ≠ 0x22 := by decide
  rw [readDoubleQuoted.eq_def]
  simp only [if_neg hquote, h]
  rcases readDoubleQuoted s with _ | text
  · rfl
  · rfl

/-- **A writer that escapes byte by byte is read back** if each escape is. -/
theorem readDoubleQuoted_flatMap {escape : UInt8 → Text}
    (h : ∀ b s, readDoubleQuoted (escape b ++ s) = (readDoubleQuoted s).map (b :: ·)) (text : Text) :
    readDoubleQuoted (text.flatMap escape ++ [0x22]) = some text := by
  induction text with
  | nil => rfl
  | cons b text ih =>
      rw [List.flatMap_cons, List.append_assoc, h, ih]
      rfl

/-! ## Rules for lines -/

theorem lexLine_blanks (column n : Nat) (s : Text) :
    lexLine column (List.replicate n 0x20 ++ s) = lexLine (column + n) s := by
  induction n generalizing column with
  | zero => rfl
  | succ n ih =>
      rw [List.replicate_succ, List.cons_append, lexLine.eq_def]
      simp only [if_true]
      rw [ih, Nat.add_assoc, Nat.add_comm 1]

theorem lexLine_dash (column : Nat) (s : Text) :
    lexLine column (0x2D :: 0x20 :: s) = (lexLine (column + 2) s).map (⟨column, .dash⟩ :: ·) := by
  have hblank : (0x2D : UInt8) ≠ 0x20 := by decide
  rw [lexLine.eq_def]
  simp only [if_neg hblank, if_true]

/-- A word, with what does not continue it. -/
theorem word_split {name rest : Text} (hname : ∀ b ∈ name, isWord b = true)
    (hrest : ∀ b ∈ rest.head?, isWord b = false) :
    (name ++ rest).takeWhile isWord = name ∧ (name ++ rest).dropWhile isWord = rest := by
  constructor
  · rw [List.takeWhile_append_of_pos hname]
    rcases rest with _ | ⟨b, rest⟩
    · exact List.append_nil _
    · rw [List.takeWhile_cons_of_neg (by rw [hrest b rfl]; decide), List.append_nil]
  · rw [List.dropWhile_append_of_pos hname]
    rcases rest with _ | ⟨b, rest⟩
    · rfl
    · rw [List.dropWhile_cons_of_neg (by rw [hrest b rfl]; decide)]

theorem colon_not_word (s : Text) : ∀ b ∈ (0x3A :: s).head?, isWord b = false := by
  intro b hb
  obtain rfl := Option.some.inj hb
  rfl

/-- A line that begins with a word has no blanks and no dash in front. -/
theorem lexLine_word {name rest : Text} (hne : name ≠ []) (hname : ∀ b ∈ name, isWord b = true) (column : Nat) :
    lexLine column (name ++ rest) = lexEntry column (name ++ rest) := by
  obtain ⟨b, name, rfl⟩ := List.exists_cons_of_ne_nil hne
  have hb := hname b List.mem_cons_self
  have hblank : b ≠ 0x20 := by
    rintro rfl
    cases hb
  have hdash : b ≠ 0x2D := by
    rintro rfl
    cases hb
  rw [List.cons_append, lexLine.eq_def]
  simp only [if_neg hblank, if_neg hdash]

/-- `key:`. -/
theorem lexLine_key {name : Text} (hne : name ≠ []) (hname : ∀ b ∈ name, isWord b = true) (column : Nat) :
    lexLine column (name ++ [0x3A]) = some [⟨column, .key name⟩] := by
  obtain ⟨htake, hdrop⟩ := word_split hname (colon_not_word [])
  rw [lexLine_word hne hname]
  unfold lexEntry
  rw [htake, hdrop]
  exact if_pos ⟨hne, rfl⟩

/-- `key: value`. -/
theorem lexLine_entry {name s : Text} {value : Node} (hne : name ≠ []) (hname : ∀ b ∈ name, isWord b = true)
    (h : readScalar s = some value) (column : Nat) :
    lexLine column (name ++ 0x3A :: 0x20 :: s) =
      some [⟨column, .key name⟩, ⟨column + name.length + 2, .scalar value⟩] := by
  obtain ⟨htake, hdrop⟩ := word_split hname (colon_not_word (0x20 :: s))
  rw [lexLine_word hne hname]
  unfold lexEntry
  rw [htake, hdrop]
  dsimp only
  rw [if_neg (fun hcolon => nomatch hcolon.2), if_pos ⟨hne, rfl⟩]
  show (readScalar s).map _ = _
  rw [h]
  rfl

theorem readScalar_word {name : Text} (hne : name ≠ []) (hname : ∀ b ∈ name, isWord b = true) :
    readScalar name = some (.word name) := by
  have hquote : ¬name.head? = some 0x22 := by
    intro hhead
    have hword := hname 0x22 (List.mem_of_mem_head? hhead)
    cases hword
  have hempty : name ≠ [0x5B, 0x5D] := by
    rintro rfl
    have hword := hname 0x5B List.mem_cons_self
    cases hword
  unfold readScalar
  rw [if_neg hquote, if_neg hempty, if_pos ⟨hne, List.all_eq_true.mpr hname⟩]

/-- A word by itself. -/
theorem lexLine_scalar {name : Text} (hne : name ≠ []) (hname : ∀ b ∈ name, isWord b = true) (column : Nat) :
    lexLine column name = some [⟨column, .scalar (.word name)⟩] := by
  have hline := @lexLine_word name [] hne hname column
  obtain ⟨htake, hdrop⟩ := @word_split name [] hname nofun
  rw [List.append_nil] at hline htake hdrop
  rw [hline]
  unfold lexEntry
  rw [htake, hdrop, if_neg (fun hcolon => nomatch hcolon.2), if_neg (fun hcolon => nomatch hcolon.2),
    readScalar_word hne hname]
  rfl

/-! ## Rules for texts -/

/-- A text of whole lines has these tokens, wherever it stands. -/
def Lexes (text : Text) (tokens : List Token) : Prop :=
  ∀ rest more, lex rest = some more → lex (text ++ rest) = some (tokens ++ more)

theorem lex_nil : lex [] = some [] := rfl

theorem Lexes.lex {text : Text} {tokens : List Token} (h : Lexes text tokens) : lex text = some tokens := by
  have happend := h [] [] lex_nil
  rwa [List.append_nil, List.append_nil] at happend

theorem lexes_nil : Lexes [] [] := fun _ _ h => h

theorem Lexes.append {s t : Text} {us vs : List Token} (hs : Lexes s us) (ht : Lexes t vs) :
    Lexes (s ++ t) (us ++ vs) := by
  intro rest more h
  rw [List.append_assoc, List.append_assoc]
  exact hs _ _ (ht _ _ h)

theorem lexes_flatMap {ι : Type} {xs : List ι} {text : ι → Text} {tokens : ι → List Token}
    (h : ∀ x ∈ xs, Lexes (text x) (tokens x)) : Lexes (xs.flatMap text) (xs.flatMap tokens) := by
  induction xs with
  | nil => exact lexes_nil
  | cons x xs ih =>
      obtain ⟨hx, hxs⟩ := List.forall_mem_cons.mp h
      rw [List.flatMap_cons, List.flatMap_cons]
      exact hx.append (ih hxs)

/-- One line. -/
theorem lexes_line {line : Text} {tokens : List Token} (hline : 0x0A ∉ line) (h : lexLine 0 line = some tokens) :
    Lexes (line ++ [0x0A]) tokens := by
  intro rest more hrest
  have hsplit : (line ++ [0x0A] ++ rest).splitOn 0x0A = line :: rest.splitOn 0x0A := by
    rw [List.append_assoc, List.singleton_append, List.splitOn_eq_splitOnP, List.splitOn_eq_splitOnP]
    apply List.splitOnP_append_cons_of_forall_mem _ _ rfl
    intro b hb
    exact beq_eq_false_iff_ne.mpr fun heq => hline (heq ▸ hb)
  obtain ⟨lines, hlines, heq⟩ := Option.bind_eq_some_iff.mp hrest
  obtain rfl := Option.some.inj heq
  unfold YamlText.lex
  rw [hsplit, List.mapM_cons, h, hlines]
  rfl

theorem lf_not_word {name : Text} (hname : ∀ b ∈ name, isWord b = true) : 0x0A ∉ name := by
  intro hmem
  have hword := hname 0x0A hmem
  cases hword

theorem lf_not_blank (n : Nat) : (0x0A : UInt8) ∉ List.replicate n 0x20 :=
  fun hmem => absurd (List.eq_of_mem_replicate hmem) (by decide)

/-- A line of its own, behind blanks. -/
theorem lexes_blanks {line : Text} {n : Nat} {tokens : List Token} (hline : 0x0A ∉ line)
    (h : lexLine n line = some tokens) : Lexes (List.replicate n 0x20 ++ line ++ [0x0A]) tokens := by
  apply lexes_line
  · intro hmem
    exact (List.mem_append.mp hmem).elim (lf_not_blank n) hline
  · rw [lexLine_blanks, Nat.zero_add, h]

/-- `key:`. -/
theorem lexes_key {key : Text} (n : Nat) (hne : key ≠ []) (hword : ∀ b ∈ key, isWord b = true) :
    Lexes (List.replicate n 0x20 ++ (key ++ [0x3A]) ++ [0x0A]) [⟨n, .key key⟩] := by
  apply lexes_blanks _ (lexLine_key hne hword n)
  intro hmem
  exact (List.mem_append.mp hmem).elim (lf_not_word hword) (by decide)

/-- `- word`. -/
theorem lexes_item {name : Text} (n : Nat) (hne : name ≠ []) (hword : ∀ b ∈ name, isWord b = true) :
    Lexes (List.replicate n 0x20 ++ (0x2D :: 0x20 :: name) ++ [0x0A])
      [⟨n, .dash⟩, ⟨n + 2, .scalar (.word name)⟩] := by
  apply lexes_blanks
  · intro hmem
    have hmem' : (0x0A : UInt8) ∈ [0x2D, 0x20] ++ name := hmem
    exact (List.mem_append.mp hmem').elim (by decide) (lf_not_word hword)
  · rw [lexLine_dash, lexLine_scalar hne hword]
    rfl

/-- `[]`. -/
theorem lexes_empty (n : Nat) :
    Lexes (List.replicate n 0x20 ++ [0x5B, 0x5D] ++ [0x0A]) [⟨n, .scalar (.sequence [])⟩] :=
  lexes_blanks (by decide) rfl

/-! ## Rules for blocks -/

mutual

/-- A tree with its root at a column, and each node's children together at a deeper one. -/
inductive Laid : Nat → RoseTree Token → Prop
  | node {c c' : Nat} {item : Item} {children : List (RoseTree Token)} (deeper : c < c')
      (laid : LaidAll c' children) : Laid c (.node ⟨c, item⟩ children)

inductive LaidAll : Nat → List (RoseTree Token) → Prop
  | nil (c : Nat) : LaidAll c []
  | cons {c : Nat} {t : RoseTree Token} {ts : List (RoseTree Token)} (first : Laid c t) (rest : LaidAll c ts) :
      LaidAll c (t :: ts)

end

theorem Laid.column {c : Nat} {t : RoseTree Token} (h : Laid c t) : column t = c := by
  cases h
  rfl

theorem LaidAll.column {c : Nat} {ts : List (RoseTree Token)} (h : LaidAll c ts) : ∀ t ∈ ts, column t = c := by
  induction ts with
  | nil => exact List.forall_mem_nil _
  | cons t ts ih =>
      cases h with
      | cons first rest => exact List.forall_mem_cons.mpr ⟨first.column, ih rest⟩

/-- A token takes the trees that stand deeper, up to the first one that does not. -/
theorem graft_append {token : Token} {children ts : List (RoseTree Token)}
    (hdeeper : ∀ t ∈ children, token.column < column t) (hts : ∀ t ∈ ts.head?, column t ≤ token.column) :
    graft token (children ++ ts) = .node token children :: ts := by
  have htake : ∀ t ∈ children, decide (token.column < column t) = true := fun t ht => decide_eq_true (hdeeper t ht)
  unfold graft
  rw [List.takeWhile_append_of_pos htake, List.dropWhile_append_of_pos htake]
  rcases ts with _ | ⟨t, ts⟩
  · rw [List.takeWhile_nil, List.append_nil]
    rfl
  · have hstop : ¬decide (token.column < column t) = true := by
      rw [decide_eq_true_eq]
      exact not_lt.mpr (hts t rfl)
    have hnone : (t :: ts).takeWhile (fun u => decide (token.column < column u)) = [] :=
      List.takeWhile_cons_of_neg hstop
    have hall : (t :: ts).dropWhile (fun u => decide (token.column < column u)) = t :: ts :=
      List.dropWhile_cons_of_neg hstop
    rw [hnone, hall, List.append_nil]

mutual

theorem Laid.foldr_graft {c : Nat} {t : RoseTree Token} (h : Laid c t) {ts : List (RoseTree Token)}
    (hts : ∀ u ∈ ts.head?, YamlText.column u ≤ c) : t.labels.foldr graft ts = t :: ts := by
  cases h with
  | @node c c' item children deeper laid =>
      have hhead : ∀ u ∈ ts.head?, YamlText.column u ≤ c' := fun u hu => (hts u hu).trans deeper.le
      rw [RoseTree.labels, List.foldr_cons, laid.foldr_graft hhead]
      apply graft_append _ hts
      intro t ht
      rw [laid.column t ht]
      exact deeper

/-- **Trees are found again in their tokens**, in front of others that stand no deeper. -/
theorem LaidAll.foldr_graft {c : Nat} {us : List (RoseTree Token)} (h : LaidAll c us) {ts : List (RoseTree Token)}
    (hts : ∀ u ∈ ts.head?, YamlText.column u ≤ c) : (RoseTree.labelsAll us).foldr graft ts = us ++ ts := by
  cases h with
  | nil => rfl
  | @cons _ t us first rest =>
      rw [RoseTree.labelsAll, List.foldr_append, rest.foldr_graft hts]
      apply first.foldr_graft
      intro u hu
      rcases us with _ | ⟨u', us⟩
      · exact hts u hu
      · obtain rfl := Option.some.inj hu
        exact (rest.column u' List.mem_cons_self).le

end

theorem LaidAll.forest {c : Nat} {ts : List (RoseTree Token)} (h : LaidAll c ts) :
    forest (RoseTree.labelsAll ts) = ts := by
  have hfold := @LaidAll.foldr_graft c ts h [] nofun
  rwa [List.append_nil] at hfold

/-- Trees at a column that denote a node. -/
structure Means (c : Nat) (ts : List (RoseTree Token)) (value : Node) : Prop where
  laid : LaidAll c ts
  node : nodeOf ts = some value

theorem means_scalar (c : Nat) (value : Node) : Means c [.node ⟨c, .scalar value⟩ []] value :=
  ⟨.cons (.node (Nat.lt_succ_self c) (.nil _)) (.nil _), rfl⟩

theorem assemble_dash (c : Nat) (first : Node) (parts : List (Token × Node)) :
    assemble ((⟨c, .dash⟩, first) :: parts) =
      (((⟨c, .dash⟩, first) :: parts).mapM (itemAt c)).map .sequence := by
  rw [Option.map_eq_bind]
  rcases parts with _ | ⟨second, parts⟩
  · rfl
  · rfl

theorem assemble_key (c : Nat) (name : Text) (first : Node) (parts : List (Token × Node)) :
    assemble ((⟨c, .key name⟩, first) :: parts) =
      (((⟨c, .key name⟩, first) :: parts).mapM (entryAt c)).bind fun entries =>
        if (entries.map Prod.fst).Nodup then some (.mapping entries) else none := by
  rcases parts with _ | ⟨second, parts⟩
  · rfl
  · rfl

theorem part_node {token : Token} {children : List (RoseTree Token)} {value : Node}
    (h : nodeOf children = some value) : part (.node token children) = some (token, value) := by
  obtain ⟨parts, hparts, hvalue⟩ := Option.bind_eq_some_iff.mp h
  rw [part, hparts]
  show (assemble parts).bind _ = _
  rw [hvalue]
  rfl

theorem partsOf_map {ι : Type} {xs : List ι} {tree : ι → RoseTree Token} {result : ι → Token × Node}
    (h : ∀ x ∈ xs, part (tree x) = some (result x)) : partsOf (xs.map tree) = some (xs.map result) := by
  induction xs with
  | nil => rfl
  | cons x xs ih =>
      obtain ⟨hx, hxs⟩ := List.forall_mem_cons.mp h
      rw [List.map_cons, partsOf, hx, ih hxs]
      rfl

theorem mapM_map_some {ι α β : Type} {xs : List ι} {f : ι → α} {g : α → Option β} {r : ι → β}
    (h : ∀ x, g (f x) = some (r x)) : (xs.map f).mapM g = some (xs.map r) := by
  induction xs with
  | nil => rfl
  | cons x xs ih =>
      rw [List.map_cons, List.mapM_cons, h, ih]
      rfl

theorem laidAll_map {ι : Type} {c : Nat} {xs : List ι} {tree : ι → RoseTree Token}
    (h : ∀ x ∈ xs, Laid c (tree x)) : LaidAll c (xs.map tree) := by
  induction xs with
  | nil => exact .nil c
  | cons x xs ih =>
      obtain ⟨hx, hxs⟩ := List.forall_mem_cons.mp h
      exact .cons hx (ih hxs)

/-- **A sequence**: each item behind its dash. -/
theorem means_sequence {ι : Type} {c c' : Nat} {xs : List ι} {trees : ι → List (RoseTree Token)} {value : ι → Node}
    (hne : xs ≠ []) (hdeeper : c < c') (h : ∀ x ∈ xs, Means c' (trees x) (value x)) :
    Means c (xs.map fun x => .node ⟨c, .dash⟩ (trees x)) (.sequence (xs.map value)) := by
  refine ⟨laidAll_map fun x hx => .node hdeeper (h x hx).laid, ?_⟩
  have hparts : partsOf (xs.map fun x => .node ⟨c, .dash⟩ (trees x)) = some (xs.map fun x => (⟨c, .dash⟩, value x)) :=
    partsOf_map fun x hx => part_node (h x hx).node
  have hitems : (xs.map fun x => ((⟨c, .dash⟩, value x) : Token × Node)).mapM (itemAt c) = some (xs.map value) :=
    mapM_map_some fun x => if_pos rfl
  obtain ⟨x, xs, rfl⟩ := List.exists_cons_of_ne_nil hne
  unfold nodeOf
  rw [hparts]
  show assemble ((⟨c, .dash⟩, value x) :: xs.map fun x => (⟨c, .dash⟩, value x)) = _
  rw [assemble_dash]
  exact congrArg (Option.map Node.sequence) hitems

/-- The entries of a mapping, each with what stands below its key. -/
inductive Entries (c : Nat) : List (RoseTree Token) → List (Text × Node) → Prop
  | nil : Entries c [] []
  | cons {c' : Nat} {key : Text} {children ts : List (RoseTree Token)} {value : Node}
      {entries : List (Text × Node)} (deeper : c < c') (first : Means c' children value)
      (rest : Entries c ts entries) : Entries c (.node ⟨c, .key key⟩ children :: ts) ((key, value) :: entries)

theorem Entries.laid {c : Nat} {ts : List (RoseTree Token)} {entries : List (Text × Node)} (h : Entries c ts entries) :
    LaidAll c ts := by
  induction h with
  | nil => exact .nil c
  | cons deeper first _ ih => exact .cons (.node deeper first.laid) ih

theorem Entries.partsOf {c : Nat} {ts : List (RoseTree Token)} {entries : List (Text × Node)}
    (h : Entries c ts entries) : partsOf ts = some (entries.map fun e => (⟨c, .key e.1⟩, e.2)) := by
  induction h with
  | nil => rfl
  | cons deeper first _ ih =>
      rw [YamlText.partsOf, part_node first.node, ih]
      rfl

/-- **A mapping**, with distinct keys. -/
theorem means_mapping {c : Nat} {ts : List (RoseTree Token)} {entries : List (Text × Node)}
    (h : Entries c ts entries) (hne : entries ≠ []) (hdistinct : (entries.map Prod.fst).Nodup) :
    Means c ts (.mapping entries) := by
  refine ⟨h.laid, ?_⟩
  have hentries : (entries.map fun e => ((⟨c, .key e.1⟩, e.2) : Token × Node)).mapM (entryAt c) = some entries := by
    rw [mapM_map_some (r := fun e => e) fun e => if_pos rfl, List.map_id']
  unfold nodeOf
  rw [h.partsOf]
  obtain ⟨⟨key, first⟩, entries, rfl⟩ := List.exists_cons_of_ne_nil hne
  show assemble ((⟨c, .key key⟩, first) :: entries.map fun e => (⟨c, .key e.1⟩, e.2)) = _
  rw [assemble_key]
  exact (congrArg (Option.bind · _) hentries).trans (if_pos hdistinct)

/-! ## Entries with a scalar -/

/-- The tree of `key: value`. -/
def entryTree (column : Nat) (key : Text) (value : Node) : RoseTree Token :=
  .node ⟨column, .key key⟩ [.node ⟨column + key.length + 2, .scalar value⟩ []]

theorem Entries.scalar {c : Nat} {key : Text} {value : Node} {ts : List (RoseTree Token)}
    {entries : List (Text × Node)} (rest : Entries c ts entries) :
    Entries c (entryTree c key value :: ts) ((key, value) :: entries) := by
  have hdeeper : c < c + key.length + 2 := by omega
  exact .cons hdeeper (means_scalar _ value) rest

/-- What an entry of a mapping begins with. -/
structure Leads (lead : Text) (tokens : List Token) (column : Nat) (key : Text) : Prop where
  unbroken : 0x0A ∉ lead
  nonempty : key ≠ []
  word : ∀ b ∈ key, isWord b = true
  lex : ∀ s, lexLine 0 (lead ++ s) = (lexLine column (key ++ 0x3A :: 0x20 :: s)).map (tokens ++ ·)

/-- `key: `, behind blanks. -/
theorem leads_key {lead key : Text} {n : Nat} (hlead : lead = List.replicate n 0x20 ++ (key ++ [0x3A, 0x20]))
    (hne : key ≠ []) (hword : ∀ b ∈ key, isWord b = true) : Leads lead [] n key := by
  refine ⟨?_, hne, hword, ?_⟩
  · rw [hlead]
    intro hmem
    rcases List.mem_append.mp hmem with hblank | hmem
    · exact lf_not_blank n hblank
    · exact (List.mem_append.mp hmem).elim (lf_not_word hword) (by decide)
  · intro s
    rw [hlead, List.append_assoc, lexLine_blanks, Nat.zero_add, List.append_assoc]
    exact Option.map_id'.symm

/-- `- key: `, behind blanks. -/
theorem leads_item {lead key : Text} {n : Nat}
    (hlead : lead = List.replicate n 0x20 ++ (0x2D :: 0x20 :: (key ++ [0x3A, 0x20])))
    (hne : key ≠ []) (hword : ∀ b ∈ key, isWord b = true) : Leads lead [⟨n, .dash⟩] (n + 2) key := by
  refine ⟨?_, hne, hword, ?_⟩
  · rw [hlead]
    intro hmem
    rcases List.mem_append.mp hmem with hblank | hmem
    · exact lf_not_blank n hblank
    · have hmem' : (0x0A : UInt8) ∈ [0x2D, 0x20] ++ (key ++ [0x3A, 0x20]) := hmem
      rcases List.mem_append.mp hmem' with hdash | hmem
      · exact absurd hdash (by decide)
      · exact (List.mem_append.mp hmem).elim (lf_not_word hword) (by decide)
  · intro s
    rw [hlead, List.append_assoc, lexLine_blanks, Nat.zero_add]
    show lexLine n (0x2D :: 0x20 :: (key ++ [0x3A, 0x20] ++ s)) = _
    rw [lexLine_dash, List.append_assoc]
    rfl

/-- **A line with an entry.** -/
theorem Leads.line {lead s key : Text} {tokens : List Token} {column : Nat} {value : Node}
    (h : Leads lead tokens column key) (hs : readScalar s = some value) (hline : 0x0A ∉ s) :
    Lexes (lead ++ s ++ [0x0A]) (tokens ++ (entryTree column key value).labels) := by
  apply lexes_line
  · intro hmem
    exact (List.mem_append.mp hmem).elim h.unbroken hline
  · rw [h.lex, lexLine_entry h.nonempty h.word hs]
    rfl

theorem labelsAll_map {ι : Type} (tree : ι → RoseTree Token) (xs : List ι) :
    RoseTree.labelsAll (xs.map tree) = xs.flatMap fun x => (tree x).labels := by
  induction xs with
  | nil => rfl
  | cons x xs ih => rw [List.map_cons, RoseTree.labelsAll, ih, List.flatMap_cons]

/-- **A text is read** by its tokens and their trees. -/
theorem read_of {text : Text} {c : Nat} {ts : List (RoseTree Token)} {value : Node}
    (htext : Lexes text (RoseTree.labelsAll ts)) (h : Means c ts value) : read text = some value := by
  unfold read
  rw [htext.lex]
  show nodeOf (forest (RoseTree.labelsAll ts)) = some value
  rw [h.laid.forest, h.node]

end YamlText
