import CodeAtlas.Proofs.Json.Documents

/-!
# JSON texts

A document has many texts.  Blanks may stand around every value and key, and literals and numbers may be written in
several ways.

* `Spelled d s` — `s` is one of the texts of the document `d`;
* `Spelled.exists_tokens` — the lexer finds in a text of a document tokens that the parser arranges into it;
* `Spelled.parse_append` — so a text of a document is parsed into it, and what follows it is left over;
* `exists_parse_leading` — an object of which only the first members and a key are known still has these.
-/

namespace CodeAtlas.Json

/-! ### Documents as they may be written -/

/-- Characters that may stand between tokens. -/
def Blanks (s : List Char) : Prop := ∀ c ∈ s, isSpace c = true

theorem blanks_nil : Blanks [] := by
  intro c hc
  cases hc

/-- The text of a string literal with its quotes, and blanks around it. -/
inductive QuotedText : RawText → List Char → Prop where
  | mk {t : RawText} {before s behind : List Char} (hbefore : Blanks before) (h : LiteralText t s)
      (hbehind : Blanks behind) : QuotedText t (before ++ '"' :: (s ++ '"' :: behind))

/-- A member of an object with the texts of its key and of its value. -/
structure Member where
  key : RawText
  value : Document
  keyText : List Char
  valueText : List Char

namespace Member

def pair (m : Member) : RawText × Document := (m.key, m.value)

def text (m : Member) : List Char := m.keyText ++ ':' :: m.valueText

end Member

/-- The text is one of those of the document. -/
inductive Spelled : Document → List Char → Prop where
  | null : Spelled .null "null".toList
  | bool (b : Bool) : Spelled (.bool b) (if b then "true" else "false").toList
  | number {n : Numeral} {s : List Char} (h : NumeralText n s) : Spelled (.number n) s
  | text {t : RawText} {s : List Char} (h : QuotedText t s) : Spelled (.text t) s
  /-- Blanks are all that may stand in an empty array. -/
  | array {items : List (Document × List Char)} {blanks : List Char} (hblanks : Blanks blanks)
      (h : ∀ x ∈ items, Spelled x.1 x.2) :
      Spelled (.array (items.map Prod.fst) .closed)
        ('[' :: (blanks ++ ([','].intercalate (items.map Prod.snd) ++ [']'])))
  | object {members : List Member} {blanks : List Char} (hblanks : Blanks blanks)
      (hkeys : ∀ m ∈ members, QuotedText m.key m.keyText)
      (hvalues : ∀ m ∈ members, Spelled m.value m.valueText) :
      Spelled (.object (members.map Member.pair) .closed)
        ('\x7b' :: (blanks ++ ([','].intercalate (members.map Member.text) ++ ['\x7d'])))
  | padded {d : Document} {before s behind : List Char} (hbefore : Blanks before) (h : Spelled d s)
      (hbehind : Blanks behind) : Spelled d (before ++ (s ++ behind))

/-! ### The lexer on texts of documents -/

theorem QuotedText.lex_append {t : RawText} {s : List Char} (h : QuotedText t s) (rest : List Char) :
    lex (s ++ rest) = .text t :: lex rest := by
  obtain ⟨hbefore, h, hbehind⟩ := h
  simp only [List.append_assoc, List.cons_append]
  rw [lex_blanks hbefore, lex_of_literalText h, lex_blanks hbehind]

section Separated

variable {β : Type} {text : β → List Char} {tokens : β → List Token} {l : List β}

/-- The lexer keeps the commas between parts. -/
theorem lex_intercalate (h : ∀ x ∈ l, ∀ rest, Stops rest → lex (text x ++ rest) = tokens x ++ lex rest)
    {rest : List Char} (hrest : Stops rest) :
    lex ([','].intercalate (l.map text) ++ rest) = [Token.comma].intercalate (l.map tokens) ++ lex rest := by
  induction l with
  | nil => rfl
  | cons x l ih =>
    have hx := h x List.mem_cons_self
    cases l with
    | nil => simpa using hx rest hrest
    | cons y l =>
      have hmore := ih fun z hz => h z (List.mem_cons_of_mem x hz)
      simp only [List.map_cons, List.intercalate_cons_cons, List.append_assoc, List.cons_append,
        List.nil_append] at hmore ⊢
      rw [hx _ (stops_cons (by decide)), lex_comma, hmore]

/-- The lexer keeps the commas behind parts that others follow. -/
theorem lex_leading (h : ∀ x ∈ l, ∀ rest, Stops rest → lex (text x ++ rest) = tokens x ++ lex rest)
    (rest : List Char) :
    lex ((l.flatMap fun x => text x ++ [',']) ++ rest) =
      (l.flatMap fun x => tokens x ++ [Token.comma]) ++ lex rest := by
  induction l with
  | nil => rfl
  | cons x l ih =>
    have hmore := ih fun y hy => h y (List.mem_cons_of_mem x hy)
    simp only [List.flatMap_cons, List.append_assoc, List.cons_append, List.nil_append]
    rw [h x List.mem_cons_self _ (stops_cons (by decide)), lex_comma, hmore]

end Separated

/-- The lexer finds the tokens in the text, and the parser arranges them into the document.  Only a number
could go on with what follows it. -/
structure TokensOf (d : Document) (s : List Char) (ts : List Token) : Prop extends Arranged ts d where
  lex_append : ∀ {rest : List Char}, ((∃ n, d = .number n) → Stops rest) → lex (s ++ rest) = ts ++ lex rest

theorem Member.lex_append {m : Member} {ts : List Token} (hkey : QuotedText m.key m.keyText)
    (hvalue : TokensOf m.value m.valueText ts) {rest : List Char} (hrest : Stops rest) :
    lex (m.text ++ rest) = .text m.key :: .colon :: ts ++ lex rest := by
  rw [text, List.append_assoc, hkey.lex_append, List.cons_append, lex_colon,
    hvalue.lex_append fun _ => hrest]
  rfl

theorem Spelled.exists_tokens {d : Document} {s : List Char} (h : Spelled d s) : ∃ ts, TokensOf d s ts := by
  induction h with
  | null =>
    refine ⟨[.null], .single (by decide) fun _ _ => rfl, fun {rest} _ => ?_⟩
    show lex ('n' :: ("ull".toList ++ rest)) = .null :: lex rest
    rw [lex_cons (by decide), lexToken, lexToken_word]
  | bool b =>
    refine ⟨[.bool b], .single (by simp) fun _ _ => rfl, fun {rest} _ => ?_⟩
    cases b with
    | true =>
      show lex ('t' :: ("rue".toList ++ rest)) = .bool true :: lex rest
      rw [lex_cons (by decide), lexToken, lexToken_word]
    | false =>
      show lex ('f' :: ("alse".toList ++ rest)) = .bool false :: lex rest
      rw [lex_cons (by decide), lexToken, lexToken_word]
  | @number n s h =>
    exact ⟨[.number n], .single (by simp) fun _ _ => rfl, fun hrest => lex_of_numeralText h (hrest ⟨n, rfl⟩)⟩
  | @text t s h => exact ⟨[.text t], .single (by simp) fun _ _ => rfl, fun _ => h.lex_append _⟩
  | @array items blanks hblanks _ ih =>
    choose! tokens htokens using ih
    refine ⟨_, .array fun x hx => (htokens x hx).toArranged, fun {rest} _ => ?_⟩
    have hitems := lex_intercalate (fun x hx rest hrest => (htokens x hx).lex_append fun _ => hrest)
      (stops_cons (s := rest) (c := ']') (by decide))
    simp only [List.cons_append, List.append_assoc, List.nil_append]
    rw [lex_openArray, lex_blanks hblanks, hitems, lex_closeArray]
  | @object members blanks hblanks hkeys _ ih =>
    choose! tokens htokens using ih
    refine ⟨.openObject :: ([Token.comma].intercalate (members.map (Arranged.member Member.key tokens)) ++
      [.closeObject]), .object fun m hm => (htokens m hm).toArranged, fun {rest} _ => ?_⟩
    have hmembers : lex ([','].intercalate (members.map Member.text) ++ '\x7d' :: rest) =
        [Token.comma].intercalate (members.map (Arranged.member Member.key tokens)) ++ lex ('\x7d' :: rest) :=
      lex_intercalate (fun m hm _ hrest => Member.lex_append (hkeys m hm) (htokens m hm) hrest)
        (stops_cons (by decide))
    simp only [List.cons_append, List.append_assoc, List.nil_append]
    rw [lex_openObject, lex_blanks hblanks, hmembers, lex_closeObject]
  | @padded d before s behind hbefore _ hbehind ih =>
    obtain ⟨ts, hts⟩ := ih
    refine ⟨ts, hts.toArranged, fun {rest} hrest => ?_⟩
    simp only [List.append_assoc]
    rw [lex_blanks hbefore, hts.lex_append fun hnumber => stops_append hbehind (hrest hnumber),
      lex_blanks hbehind]

/-- A text of a document is parsed into it, and what follows it is left over. -/
theorem Spelled.parse_append {d : Document} {s rest : List Char} (h : Spelled d s)
    (hrest : (∃ n, d = .number n) → Stops rest) : Document.parse (s ++ rest) = (d, lex rest) := by
  obtain ⟨ts, hts⟩ := h.exists_tokens
  rw [Document.parse, hts.lex_append hrest]
  apply hts.parseValue_append
  rw [List.length_append]
  omega

/-- Whatever follows the key of a member, the parser has a member with this key. -/
theorem Document.exists_parseMembers_text (fuel : ℕ) (afterComma : Bool) (key : RawText) (ts : List Token) :
    ∃ d more, (parseMembers (fuel + 1) afterComma (.text key :: ts)).1 = (key, d) :: more := by
  cases ts with
  | nil => exact ⟨_, _, rfl⟩
  | cons t ts =>
    cases t with
    | colon =>
      rw [parseMembers]
      obtain ⟨d, rest⟩ := parseValue fuel ts
      dsimp only
      split <;> exact ⟨d, _, rfl⟩
    | _ => exact ⟨_, _, rfl⟩

/-- An object of which members, each with a comma behind it, and one more key are written. -/
theorem exists_parse_leading {members : List Member} (hkeys : ∀ m ∈ members, QuotedText m.key m.keyText)
    (hvalues : ∀ m ∈ members, Spelled m.value m.valueText) {before : List Char} (hbefore : Blanks before)
    {key : RawText} {keyText : List Char} (hkey : QuotedText key keyText) (rest : List Char) :
    ∃ d more ending, (Document.parse (before ++ '\x7b' ::
        ((members.flatMap fun m => m.text ++ [',']) ++ (keyText ++ rest)))).1 =
      .object (members.map Member.pair ++ (key, d) :: more) ending := by
  have hexists : ∀ m ∈ members, ∃ ts, TokensOf m.value m.valueText ts := fun m hm => (hvalues m hm).exists_tokens
  choose! tokens htokens using hexists
  have hlex : lex (before ++ '\x7b' :: ((members.flatMap fun m => m.text ++ [',']) ++ (keyText ++ rest))) =
      .openObject :: (Arranged.leading Member.key tokens members ++ .text key :: lex rest) := by
    rw [lex_blanks hbefore, lex_openObject,
      lex_leading fun m hm _ hrest => Member.lex_append (hkeys m hm) (htokens m hm) hrest, hkey.lex_append]
    rfl
  have hfuel : 2 * (Arranged.leading Member.key tokens members).length ≤
      2 * ((Arranged.leading Member.key tokens members ++ .text key :: lex rest).length + 1) + 1 := by
    rw [List.length_append]
    omega
  obtain ⟨b, f, hf, hmembers⟩ := Arranged.parseMembers_leading (fun m hm => (htokens m hm).toArranged) hfuel
    false (.text key :: lex rest)
  rw [List.length_append] at hf
  obtain ⟨f, rfl⟩ : ∃ f', f = f' + 1 := ⟨f - 1, by omega⟩
  obtain ⟨d, more, hmore⟩ := Document.exists_parseMembers_text f b key (lex rest)
  refine ⟨d, more, (Document.parseMembers (f + 1) b (.text key :: lex rest)).2.1, ?_⟩
  rw [Document.parse, hlex, List.length_cons, Document.parseValue_openObject (Arranged.head_leading_ne _ _ _),
    hmembers, hmore]
  rfl

/-! ### Skipping -/

theorem Document.skipItems?_eq_none {items : List Document} (h : ∀ d ∈ items, d.skipFault? = none) :
    skipItems? items = none := by
  induction items with
  | nil => rfl
  | cons d items ih =>
    rw [skipItems?, h d List.mem_cons_self, ih fun e he => h e (List.mem_cons_of_mem d he)]
    rfl

theorem Document.skipMembers?_eq_none {members : List (RawText × Document)}
    (h : ∀ m ∈ members, m.2.skipFault? = none) : skipMembers? members = none := by
  induction members with
  | nil => rfl
  | cons m members ih =>
    rw [skipMembers?, h m List.mem_cons_self, ih fun n hn => h n (List.mem_cons_of_mem m hn)]
    rfl

/-- A reader that skips values finds no fault in a text of a document. -/
theorem Spelled.skipFault?_eq_none {d : Document} {s : List Char} (h : Spelled d s) : d.skipFault? = none := by
  induction h with
  | array _ _ ih =>
    rw [Document.skipFault?, Document.skipItems?_eq_none (by simpa using ih)]
    rfl
  | object _ _ _ ih =>
    rw [Document.skipFault?, Document.skipMembers?_eq_none (by simpa [Member.pair] using ih)]
    rfl
  | padded _ _ _ ih => exact ih
  | _ => rfl

end CodeAtlas.Json
