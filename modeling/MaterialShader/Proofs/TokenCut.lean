import MaterialShader.Proofs.SplicedSection

/-!
# Texts that are cut at their tokens

A text is read from the left, a token or a character at a time.  What comes out is the cut of the
text at all the tokens that are written in it, since no token begins inside another one.  For the
same reason a text may be cut in front of any character that stands inside no token, as dollar
signs and the characters of terminators do, and the parts read one by one.

## Main definitions

* `Template.tokenText`, `Template.IsTokenName` — how a token is written.
* `Template.IsNeverInside` — a character that may begin a token but goes on with none.
* `Template.Cut`, `Template.Cut.IsCutOf` — a text cut at all of its tokens.

## Main results

* `Template.reading_induction` — how a text is read from the left.
* `Template.pieces_append_cons` — where a text can be cut.
* `Template.exists_isCutOf`, `Template.pieces_of_isCutOf` — every text has a cut, and it is read
  as the cut says.
-/

namespace MaterialShader

namespace Template

open Text (isWordChar)

variable {name : String} {cs rest : List Char} {c : Char}

/-! ### Tokens -/

/-- A name that a token can have. -/
def IsTokenName (name : String) : Prop := name ≠ "" ∧ ∀ c ∈ name.toList, isWordChar c = true

/-- A token behind its first character. -/
def tokenTail (name : String) : List Char := "splice(".toList ++ (name.toList ++ [')'])

/-- A token as it is written. -/
def tokenText (name : String) : List Char := '$' :: tokenTail name

theorem tokenText_eq (name : String) : tokenText name = tokenStart ++ (name.toList ++ [')']) := rfl

theorem tokenAt?_tokenText (hname : IsTokenName name) (rest : List Char) :
    tokenAt? (tokenText name ++ rest) = some name.toList := by
  rw [tokenText_eq, List.append_assoc, List.append_assoc, List.singleton_append]
  exact tokenAt?_token (mt String.toList_eq_nil_iff.mp hname.1) hname.2 rest

theorem eq_append_of_dropPrefix? {start : List Char} (h : dropPrefix? start cs = some rest) :
    cs = start ++ rest := by
  induction start generalizing cs with
  | nil => exact Option.some.inj h
  | cons p start ih =>
    cases cs with
    | nil => exact absurd h (by rintro ⟨⟩)
    | cons c cs =>
      rw [dropPrefix?] at h
      split at h
      · next heq => rw [heq, List.cons_append, ih h]
      · exact absurd h (by rintro ⟨⟩)

/-- A token is found only where one is written. -/
theorem exists_of_tokenAt? {word : List Char} (h : tokenAt? cs = some word) :
    IsTokenName (String.ofList word) ∧ ∃ rest, cs = tokenText (String.ofList word) ++ rest := by
  obtain ⟨body, hbody, h⟩ := Option.bind_eq_some_iff.mp h
  obtain ⟨rest, hrest, h⟩ := Option.bind_eq_some_iff.mp h
  split at h
  · exact absurd h (by rintro ⟨⟩)
  · next hne =>
    obtain rfl := Option.some.inj h
    have hsplit : body.takeWhile isWordChar ++ ')' :: rest = body := by
      rw [← List.singleton_append, ← eq_append_of_dropPrefix? hrest]
      exact List.takeWhile_append_dropWhile
    refine ⟨⟨?_, fun c hc => ?_⟩, rest, ?_⟩
    · simpa using hne
    · rw [String.toList_ofList] at hc
      exact List.mem_takeWhile_imp hc
    · rw [eq_append_of_dropPrefix? hbody, tokenText_eq, String.toList_ofList, List.append_assoc,
        List.append_assoc, List.singleton_append, hsplit]

/-! ### Reading a text from the left -/

theorem piecesFrom_eq (skip : Nat) (cs : List Char) :
    piecesFrom skip cs = pieces (cs.drop skip) := by
  induction cs generalizing skip with
  | nil => cases skip <;> rfl
  | cons c cs ih =>
    cases skip with
    | zero => rfl
    | succ skip => exact ih skip

/-- A token is a piece. -/
theorem pieces_tokenText (hname : IsTokenName name) (rest : List Char) :
    pieces (tokenText name ++ rest) = .token name :: pieces rest := by
  have htoken := tokenAt?_tokenText hname rest
  obtain ⟨start, hstart, htail⟩ : ∃ start, tokenStart = '$' :: start ∧
      tokenTail name = start ++ (name.toList ++ [')']) := ⟨_, rfl, rfl⟩
  have hlength : tokenStart.length + name.toList.length = (tokenTail name).length := by
    rw [hstart, htail]
    simp only [List.length_append, List.length_cons, List.length_nil]
    omega
  rw [tokenText, List.cons_append] at htoken ⊢
  rw [pieces, piecesFrom, htoken]
  dsimp only
  rw [String.ofList_toList, piecesFrom_eq, hlength, List.drop_left]

/-- A character that starts no token is a piece. -/
theorem pieces_cons (h : tokenAt? (c :: cs) = none) : pieces (c :: cs) = .char c :: pieces cs := by
  rw [pieces, piecesFrom, h]
  rfl

/-- A text is read from the left, a token or a character at a time. -/
theorem reading_induction {P : List Char → Prop} (nil : P [])
    (char : ∀ c cs, tokenAt? (c :: cs) = none → P cs → P (c :: cs))
    (token : ∀ name rest, IsTokenName name → P rest → P (tokenText name ++ rest))
    (cs : List Char) : P cs := by
  induction hlength : cs.length using Nat.strong_induction_on generalizing cs with
  | _ n ih =>
    cases cs with
    | nil => exact nil
    | cons c cs =>
      rw [List.length_cons] at hlength
      cases htoken : tokenAt? (c :: cs) with
      | none => exact char c cs htoken (ih cs.length (by omega) cs rfl)
      | some word =>
        obtain ⟨hname, rest, heq⟩ := exists_of_tokenAt? htoken
        have hrest : (c :: cs).length = (tokenText (String.ofList word)).length + rest.length := by
          rw [heq, List.length_append]
        rw [tokenText, List.length_cons, List.length_cons] at hrest
        rw [heq]
        exact token _ rest hname (ih rest.length (by omega) rest rfl)

/-- The character stands in no token, unless a token starts with it. -/
def IsNeverInside (c : Char) : Prop := ∀ name, IsTokenName name → c ∉ tokenTail name

theorem isNeverInside_of (hstart : c ∉ "splice(".toList) (hword : isWordChar c = false)
    (hclose : c ≠ ')') : IsNeverInside c := by
  intro name hname hmem
  rcases List.mem_append.mp hmem with hmem | hmem
  · exact hstart hmem
  rcases List.mem_append.mp hmem with hmem | hmem
  · rw [hname.2 c hmem] at hword
    exact absurd hword (by rintro ⟨⟩)
  · exact hclose (List.mem_singleton.mp hmem)

theorem isNeverInside_dollar : IsNeverInside '$' :=
  isNeverInside_of (by decide) (by decide) (by decide)

theorem isNeverInside_feed : IsNeverInside '\n' :=
  isNeverInside_of (by decide) (by decide) (by decide)

theorem isNeverInside_return : IsNeverInside '\r' :=
  isNeverInside_of (by decide) (by decide) (by decide)

/-- **A text can be cut** in front of a character that stands inside no token. -/
theorem pieces_append_cons (hc : IsNeverInside c) (cs rest : List Char) :
    pieces (cs ++ c :: rest) = pieces cs ++ pieces (c :: rest) := by
  induction cs using reading_induction with
  | nil => rfl
  | token name cs hname ih =>
    rw [List.append_assoc, pieces_tokenText hname, pieces_tokenText hname, ih, List.cons_append]
  | char d cs hnone ih =>
    have hnone' : tokenAt? (d :: (cs ++ c :: rest)) = none := by
      cases htoken : tokenAt? (d :: (cs ++ c :: rest)) with
      | none => rfl
      | some word =>
        exfalso
        obtain ⟨hname, rest', heq⟩ := exists_of_tokenAt? htoken
        rw [← List.cons_append, List.append_eq_append_iff] at heq
        obtain ⟨behind, hbehind, hrest⟩ | ⟨behind, hbehind, -⟩ := heq
        · -- the token goes on behind the cut, so that the character is inside
          cases behind with
          | nil =>
            rw [List.append_nil] at hbehind
            rw [← hbehind, ← List.append_nil (tokenText _), tokenAt?_tokenText hname] at hnone
            exact absurd hnone (by rintro ⟨⟩)
          | cons b behind =>
            obtain rfl := (List.cons.inj hrest).1
            rw [tokenText, List.cons_append, List.cons.injEq] at hbehind
            refine hc _ hname ?_
            rw [hbehind.2]
            exact List.mem_append_right _ List.mem_cons_self
        · -- the token ends in front of the cut
          rw [hbehind, tokenAt?_tokenText hname] at hnone
          exact absurd hnone (by rintro ⟨⟩)
    rw [List.cons_append, pieces_cons hnone', pieces_cons hnone, ih, List.cons_append]

theorem pieces_cons_of_ne (hc : c ≠ '$') (rest : List Char) :
    pieces (c :: rest) = .char c :: pieces rest := by
  refine pieces_cons ?_
  cases htoken : tokenAt? (c :: rest) with
  | none => rfl
  | some word =>
    obtain ⟨-, rest', heq⟩ := exists_of_tokenAt? htoken
    exact absurd (List.cons.inj heq).1 hc

/-! ### The cut of a text -/

/-- No token is written anywhere in the text. -/
def HasNoToken (cs : List Char) : Prop := ∀ name, IsTokenName name → ¬tokenText name <:+: cs

/-- A text that is cut: what stands in front of the first token, and the names of the tokens,
each with what stands between the token and the next. -/
structure Cut where
  head : List Char
  /-- The tokens. -/
  tail : List (String × List Char)
  deriving DecidableEq, Repr

namespace Cut

/-- The text that is cut. -/
def text (c : Cut) : List Char := c.head ++ c.tail.flatMap fun t => tokenText t.1 ++ t.2

/-- The names of the tokens in reading order. -/
def names (c : Cut) : List String := c.tail.map Prod.fst

/-- The cut of a text at all of its tokens. -/
structure IsCutOf (c : Cut) (text : List Char) : Prop where
  text : c.text = text
  names : ∀ t ∈ c.tail, IsTokenName t.1
  head : HasNoToken c.head
  kept : ∀ t ∈ c.tail, HasNoToken t.2

end Cut

/-- **Every text has a cut.** -/
theorem exists_isCutOf (text : List Char) : ∃ c : Cut, c.IsCutOf text := by
  have hnil : HasNoToken [] := by
    intro name _ hwritten
    exact absurd (List.infix_nil.mp hwritten) (List.cons_ne_nil _ _)
  induction text using reading_induction with
  | nil => exact ⟨⟨[], []⟩, rfl, List.forall_mem_nil _, hnil, List.forall_mem_nil _⟩
  | token name rest hname ih =>
    obtain ⟨c, hc⟩ := ih
    refine ⟨⟨[], (name, c.head) :: c.tail⟩, ?_, List.forall_mem_cons.mpr ⟨hname, hc.names⟩, hnil,
      List.forall_mem_cons.mpr ⟨hc.head, hc.kept⟩⟩
    rw [← hc.text, Cut.text, Cut.text, List.flatMap_cons, List.nil_append, List.append_assoc]
  | char d rest hnone ih =>
    obtain ⟨c, hc⟩ := ih
    refine ⟨⟨d :: c.head, c.tail⟩, ?_, hc.names, ?_, hc.kept⟩
    · rw [← hc.text, Cut.text, Cut.text, List.cons_append]
    · intro name hname hwritten
      rcases List.infix_cons_iff.mp hwritten with hbegins | hwritten
      · obtain ⟨behind, hbehind⟩ := hbegins
        rw [← hc.text, Cut.text, ← List.cons_append, ← hbehind, List.append_assoc,
          tokenAt?_tokenText hname] at hnone
        exact absurd hnone (by rintro ⟨⟩)
      · exact hc.head name hname hwritten

theorem pieces_of_hasNoToken (h : HasNoToken cs) : pieces cs = cs.map .char := by
  induction cs with
  | nil => rfl
  | cons c cs ih =>
    have hnone : tokenAt? (c :: cs) = none := by
      cases htoken : tokenAt? (c :: cs) with
      | none => rfl
      | some word =>
        obtain ⟨hname, rest, heq⟩ := exists_of_tokenAt? htoken
        exact absurd ⟨[], rest, heq.symm⟩ (h _ hname)
    have hrest : HasNoToken cs := fun name hname hwritten =>
      h name hname (hwritten.trans (List.suffix_cons c cs).isInfix)
    rw [pieces_cons hnone, ih hrest, List.map_cons]

/-- No token is written in a text that is read without one. -/
theorem hasNoToken_of_pieces (h : pieces cs = cs.map .char) : HasNoToken cs := by
  intro name hname hwritten
  obtain ⟨front, behind, rfl⟩ := hwritten
  have hmem : Piece.token name ∈ pieces (front ++ tokenText name ++ behind) := by
    rw [List.append_assoc, tokenText, List.cons_append, pieces_append_cons isNeverInside_dollar,
      ← List.cons_append, ← tokenText, pieces_tokenText hname]
    exact List.mem_append_right _ List.mem_cons_self
  rw [h] at hmem
  obtain ⟨c, -, hc⟩ := List.mem_map.mp hmem
  exact absurd hc (by rintro ⟨⟩)

instance (cs : List Char) : Decidable (HasNoToken cs) :=
  decidable_of_iff (pieces cs = cs.map .char) ⟨hasNoToken_of_pieces, pieces_of_hasNoToken⟩

instance (name : String) : Decidable (IsTokenName name) :=
  decidable_of_iff (name ≠ "" ∧ name.toList.all isWordChar = true)
    (and_congr_right' List.all_eq_true)

instance (c : Cut) (text : List Char) : Decidable (c.IsCutOf text) :=
  decidable_of_iff (c.text = text ∧ (∀ t ∈ c.tail, IsTokenName t.1) ∧ HasNoToken c.head ∧
      ∀ t ∈ c.tail, HasNoToken t.2)
    ⟨fun ⟨htext, hnames, hhead, hkept⟩ => ⟨htext, hnames, hhead, hkept⟩,
      fun h => ⟨h.text, h.names, h.head, h.kept⟩⟩

/-- The pieces of tokens and of what stands behind them. -/
def tailPieces (tail : List (String × List Char)) : List Piece :=
  tail.flatMap fun t => .token t.1 :: t.2.map .char

/-- **A text is read** as its cut says. -/
theorem pieces_of_isCutOf {c : Cut} {text : List Char} (h : c.IsCutOf text) :
    pieces text = c.head.map .char ++ tailPieces c.tail := by
  obtain ⟨head, tail⟩ := c
  obtain ⟨rfl, hnames, hhead, hkept⟩ := h
  dsimp only at hnames hhead hkept ⊢
  induction tail generalizing head with
  | nil =>
    rw [Cut.text, tailPieces, List.flatMap_nil, List.flatMap_nil, List.append_nil,
      pieces_of_hasNoToken hhead, List.append_nil]
  | cons t tail ih =>
    obtain ⟨hname, hnames⟩ := List.forall_mem_cons.mp hnames
    obtain ⟨hfirst, hkept⟩ := List.forall_mem_cons.mp hkept
    have hrest := ih t.2 hnames hfirst hkept
    rw [Cut.text, List.flatMap_cons, List.append_assoc, tokenText, List.cons_append,
      pieces_append_cons isNeverInside_dollar, pieces_of_hasNoToken hhead, ← List.cons_append,
      ← tokenText, pieces_tokenText hname]
    exact congrArg (fun ps => head.map Piece.char ++ .token t.1 :: ps) hrest

end Template
end MaterialShader
