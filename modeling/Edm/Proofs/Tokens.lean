import Edm.Proofs.Words

/-!
This module contains the laws of the tokens of expressions. Each token is told from the characters
next to it, so the tokens of a written expression follow its structure.
-/

namespace Edm.Expr

/-! ### Texts and their tokens -/

inductive Lexes : List Char → List Token → Prop where
  | nil : Lexes [] []
  | blank {c : Char} {cs : List Char} {ts : List Token} (hc : Text.isBlank c = true)
      (h : Lexes cs ts) : Lexes (c :: cs) ts
  | mark {c : Char} {cs : List Char} {t : Token} {ts : List Token}
      (hblank : Text.isBlank c = false) (hc : mark? c = some t) (h : Lexes cs ts)
      : Lexes (c :: cs) (t :: ts)
  | word {word cs : List Char} {ts : List Token} (hword : isWord false word = true)
      (hne : word ≠ []) (hcs : Delimited cs) (h : Lexes cs ts)
      : Lexes (word ++ cs) (.word (.ofList word) :: ts)

def Lexeme.finish (l : Lexeme) : Nat := l.offset + l.token.text.utf8ByteSize

/-- Texts behind so many bytes and their tokens, each with the bytes before it. -/
inductive LexesAt : Nat → List Char → List Lexeme → Prop where
  | nil (offset : Nat) : LexesAt offset [] []
  | blank {offset : Nat} {c : Char} {cs : List Char} {ls : List Lexeme}
      (hc : Text.isBlank c = true) (h : LexesAt (offset + c.utf8Size) cs ls)
      : LexesAt offset (c :: cs) ls
  | token {l : Lexeme} {cs : List Char} {ls : List Lexeme} (hne : l.token.text ≠ "")
      (hword : ∀ word, l.token = .word word → isWord false word.toList = true ∧ Delimited cs)
      (h : LexesAt l.finish cs ls) : LexesAt l.offset (l.token.text.toList ++ cs) (l :: ls)

theorem text_of_mark? {c : Char} {t : Token} (h : mark? c = some t) : t.text = .singleton c := by
  unfold mark? at h
  split at h
  . cases h
    rfl
  . cases h
    rfl
  . cases h
    rfl
  . cases h

theorem not_word_of_mark? {c : Char} {word : String} : mark? c ≠ some (.word word) := by
  unfold mark?
  split
  . nofun
  . nofun
  . nofun
  . nofun

theorem LexesAt.mark {offset : Nat} {c : Char} {cs : List Char} {t : Token} {ls : List Lexeme}
    (hc : mark? c = some t) (h : LexesAt (offset + c.utf8Size) cs ls)
    : LexesAt offset (c :: cs) (⟨t, offset⟩ :: ls) := by
  have htext := text_of_mark? hc
  have hfinish : Lexeme.finish ⟨t, offset⟩ = offset + c.utf8Size := by
    unfold Lexeme.finish
    rw [htext, String.utf8ByteSize_singleton]
  have hcs : c :: cs = t.text.toList ++ cs := by simp [htext]
  rw [hcs]
  apply LexesAt.token (l := ⟨t, offset⟩)
  . simp [htext]
  . rintro word rfl
    exact absurd hc not_word_of_mark?
  . rwa [hfinish]

theorem LexesAt.word {offset : Nat} {word cs : List Char} {ls : List Lexeme}
    (hword : isWord false word = true) (hne : word ≠ []) (hrest : Delimited cs)
    (h : LexesAt (offset + Text.utf8Size word) cs ls)
    : LexesAt offset (word ++ cs) (⟨.word (.ofList word), offset⟩ :: ls) := by
  have htext : (Token.word (.ofList word)).text.toList = word := String.toList_ofList
  have hfinish : Lexeme.finish ⟨.word (.ofList word), offset⟩ = offset + Text.utf8Size word := by
    unfold Lexeme.finish
    rw [← Text.utf8Size_toList, htext]
  have hcs : word ++ cs = (Token.word (.ofList word)).text.toList ++ cs := by rw [htext]
  rw [hcs]
  apply LexesAt.token (l := ⟨.word (.ofList word), offset⟩)
  . simpa [Token.text] using hne
  . rintro _ ⟨⟩
    exact ⟨by rwa [String.toList_ofList], hrest⟩
  . rwa [hfinish]

theorem isDelimiter_eq_false_iff {c : Char}
    : isDelimiter c = false ↔ Text.isBlank c = false ∧ mark? c = none := by
  simp [isDelimiter]

theorem go_push {read : List Lexeme} {offset : Nat} {w : OpenWord} {c : Char} (cs : List Char)
    (h : w.quoted = true ∨ isDelimiter c = false)
    : tokens.go read offset (some w) (c :: cs)
        = tokens.go read (offset + c.utf8Size) (some (w.push c)) cs := by
  rw [tokens.go]
  split
  . rfl
  . next hquoted =>
    obtain ⟨hblank, hmark⟩ := isDelimiter_eq_false_iff.mp (h.resolve_left hquoted)
    rw [hblank, hmark]
    rfl

theorem go_word (read : List Lexeme) (offset : Nat) {w : OpenWord} {cs : List Char}
    (rest : List Char) (h : isWord w.quoted cs = true)
    : tokens.go read offset (some w) (cs ++ rest)
        = tokens.go read (offset + Text.utf8Size cs)
            (some ⟨w.offset, cs.reverse ++ w.reversed, false⟩) rest := by
  induction cs generalizing offset w with
  | nil =>
    have hquoted : w.quoted = false := by simpa [isWord] using h
    rw [← hquoted]
    rfl
  | cons c cs ih =>
    obtain ⟨hc, hcs⟩ := isWord_cons.mp h
    rw [List.cons_append, go_push (cs ++ rest) hc, ih (offset + c.utf8Size) (w := w.push c) hcs,
      List.reverse_cons, List.append_assoc, Text.utf8Size_cons, Nat.add_assoc]
    rfl

theorem go_end {read : List Lexeme} {offset : Nat} {w : OpenWord} {rest : List Char}
    (hquoted : w.quoted = false) (hrest : Delimited rest)
    : tokens.go read offset (some w) rest = tokens.go (w.lexeme :: read) offset none rest := by
  cases rest with
  | nil =>
    rw [tokens.go, tokens.go]
    rw [hquoted]
    rfl
  | cons c cs =>
    rw [tokens.go, tokens.go]
    rw [hquoted]
    cases hblank : Text.isBlank c with
    | true => rfl
    | false =>
      cases hmark : mark? c with
      | some t => rfl
      | none =>
        have hc := hrest c rfl
        rw [isDelimiter_eq_false_iff.mpr ⟨hblank, hmark⟩] at hc
        cases hc

theorem go_of_lexes {cs : List Char} {ts : List Token} (h : Lexes cs ts) (read : List Lexeme)
    (offset : Nat)
    : ∃ ls,
        tokens.go read offset none cs = .ok (read.reverse ++ ls)
          ∧ ls.map (·.token) = ts
          ∧ LexesAt offset cs ls := by
  induction h generalizing read offset with
  | nil => exact ⟨[], by rw [tokens.go, List.append_nil], rfl, .nil offset⟩
  | @blank c cs ts hc _ ih =>
    obtain ⟨ls, hgo, hls, hplaces⟩ := ih read (offset + c.utf8Size)
    refine ⟨ls, ?_, hls, .blank hc hplaces⟩
    rw [tokens.go]
    rw [if_pos hc, hgo]
  | @mark c cs t ts hblank hc _ ih =>
    obtain ⟨ls, hgo, hls, hplaces⟩ := ih (⟨t, offset⟩ :: read) (offset + c.utf8Size)
    refine ⟨⟨t, offset⟩ :: ls, ?_, by rw [List.map_cons, hls], .mark hc hplaces⟩
    rw [tokens.go]
    rw [hblank, hc]
    simpa using hgo
  | @word word cs ts hword hne hcs _ ih =>
    obtain ⟨c, word, rfl⟩ := List.exists_cons_of_ne_nil hne
    have hstart : tokens.go read offset none (c :: word ++ cs)
        = tokens.go read offset (some ⟨offset, [], false⟩) (c :: word ++ cs) := by
      have hc := (isWord_cons.mp hword).1
      obtain ⟨hblank, hmark⟩ := isDelimiter_eq_false_iff.mp (hc.resolve_left Bool.false_ne_true)
      rw [List.cons_append, go_push (word ++ cs) hc, tokens.go]
      rw [hblank, hmark]
      rfl
    obtain ⟨ls, hgo, hls, hplaces⟩ :=
      ih (⟨.word (.ofList (c :: word)), offset⟩ :: read) (offset + Text.utf8Size (c :: word))
    refine ⟨⟨.word (.ofList (c :: word)), offset⟩ :: ls, ?_, by rw [List.map_cons, hls],
      .word hword hne hcs hplaces⟩
    have hlexeme : (OpenWord.mk offset ((c :: word).reverse ++ []) false).lexeme
        = ⟨.word (.ofList (c :: word)), offset⟩ := by
      unfold OpenWord.lexeme OpenWord.text
      rw [List.append_nil, List.reverse_reverse]
    rw [hstart, go_word read offset (w := ⟨offset, [], false⟩) cs hword, go_end rfl hcs, hlexeme,
      hgo, List.reverse_cons, List.append_assoc]
    rfl

theorem tokens_of_lexes {text : String} {ts : List Token} (h : Lexes text.toList ts)
    : ∃ ls, tokens text = .ok ls ∧ ls.map (·.token) = ts := by
  obtain ⟨ls, hgo, hls, _⟩ := go_of_lexes h [] 0
  exact ⟨ls, hgo, hls⟩

/-- The tokens of a text that goes on with the word that is being read, if there is one. -/
def LexesFrom : Option OpenWord → List Char → List Token → Prop
  | none, cs, ts => Lexes cs ts
  | some w, cs, ts =>
    ∃ word rest us,
      cs = word ++ rest ∧ isWord w.quoted word = true ∧ Delimited rest ∧ Lexes rest us
        ∧ ts = .word (.ofList (w.reversed.reverse ++ word)) :: us

theorem LexesFrom.push {w : OpenWord} {c : Char} {cs : List Char} {ts : List Token}
    (hc : w.quoted = true ∨ isDelimiter c = false) (h : LexesFrom (some (w.push c)) cs ts)
    : LexesFrom (some w) (c :: cs) ts := by
  obtain ⟨word, rest, us, rfl, hword, hrest, hus, rfl⟩ := h
  refine ⟨c :: word, rest, us, rfl, isWord_cons.mpr ⟨hc, hword⟩, hrest, hus, ?_⟩
  simp [OpenWord.push]

theorem LexesFrom.stop {w : OpenWord} {cs : List Char} {ts : List Token}
    (hquoted : w.quoted = false) (hcs : Delimited cs) (h : Lexes cs ts)
    : LexesFrom (some w) cs (.word w.text :: ts) := by
  refine ⟨[], cs, ts, rfl, by rw [hquoted]; rfl, hcs, h, ?_⟩
  rw [List.append_nil]
  rfl

theorem LexesFrom.start {offset : Nat} {c : Char} {cs : List Char} {ts : List Token}
    (hc : isDelimiter c = false)
    (h : LexesFrom (some (OpenWord.push ⟨offset, [], false⟩ c)) cs ts)
    : Lexes (c :: cs) ts := by
  obtain ⟨word, rest, us, rfl, hword, hrest, hus, rfl⟩ := h
  exact .word (isWord_cons.mpr ⟨.inr hc, hword⟩) (List.cons_ne_nil _ _) hrest hus

theorem lexes_of_go {read ls : List Lexeme} {offset : Nat} {word : Option OpenWord} {cs : List Char}
    (h : tokens.go read offset word cs = .ok ls)
    : ∃ ts, LexesFrom word cs ts ∧ ls.map (·.token) = read.reverse.map (·.token) ++ ts := by
  fun_induction tokens.go read offset word cs with
  | case1 read offset =>
    cases h
    exact ⟨[], .nil, by rw [List.append_nil]⟩
  | case2 => cases h
  | case3 read offset w hquoted =>
    cases h
    refine ⟨[.word w.text], .stop (eq_false_of_ne_true hquoted) delimited_nil .nil, ?_⟩
    simp [OpenWord.lexeme]
  | case4 read offset c cs next w hquoted ih =>
    obtain ⟨ts, hts, hls⟩ := ih h
    exact ⟨ts, hts.push (.inl hquoted), hls⟩
  | case5 read offset c cs next w hquoted hblank ih =>
    obtain ⟨ts, hts, hls⟩ := ih h
    have hend : Delimited (c :: cs) := delimited_cons cs (by simp [isDelimiter, hblank])
    refine ⟨.word w.text :: ts, ?_, ?_⟩
    . exact .stop (eq_false_of_ne_true hquoted) hend (.blank hblank hts)
    . rw [hls]
      simp [OpenWord.lexeme]
  | case6 read offset c cs next w hquoted hblank t hmark ih =>
    obtain ⟨ts, hts, hls⟩ := ih h
    have hend : Delimited (c :: cs) := delimited_cons cs (by simp [isDelimiter, hmark])
    have hmarked := Lexes.mark (eq_false_of_ne_true hblank) hmark hts
    refine ⟨.word w.text :: t :: ts, .stop (eq_false_of_ne_true hquoted) hend hmarked, ?_⟩
    rw [hls]
    simp [OpenWord.lexeme]
  | case7 read offset c cs next w hquoted hblank hmark ih =>
    obtain ⟨ts, hts, hls⟩ := ih h
    refine ⟨ts, hts.push (.inr ?_), hls⟩
    exact isDelimiter_eq_false_iff.mpr ⟨eq_false_of_ne_true hblank, hmark⟩
  | case8 read offset c cs next hblank ih =>
    obtain ⟨ts, hts, hls⟩ := ih h
    exact ⟨ts, .blank hblank hts, hls⟩
  | case9 read offset c cs next hblank t hmark ih =>
    obtain ⟨ts, hts, hls⟩ := ih h
    refine ⟨t :: ts, .mark (eq_false_of_ne_true hblank) hmark hts, ?_⟩
    rw [hls]
    simp
  | case10 read offset c cs next hblank hmark ih =>
    obtain ⟨ts, hts, hls⟩ := ih h
    refine ⟨ts, hts.start ?_, hls⟩
    exact isDelimiter_eq_false_iff.mpr ⟨eq_false_of_ne_true hblank, hmark⟩

theorem lexes_of_tokens {text : String} {ls : List Lexeme} (h : tokens text = .ok ls)
    : Lexes text.toList (ls.map (·.token)) := by
  obtain ⟨ts, hts, hls⟩ := lexes_of_go h
  rw [hls]
  exact hts

theorem lexesAt_of_tokens {text : String} {ls : List Lexeme} (h : tokens text = .ok ls)
    : LexesAt 0 text.toList ls := by
  obtain ⟨ls', hgo, _, hplaces⟩ := go_of_lexes (lexes_of_tokens h) [] 0
  cases h.symm.trans hgo
  exact hplaces

theorem Lexes.append {cs rest : List Char} {ts us : List Token} (h : Lexes cs ts)
    (hrest : Delimited rest) (hus : Lexes rest us) : Lexes (cs ++ rest) (ts ++ us) := by
  induction h with
  | nil => exact hus
  | blank hc _ ih => exact .blank hc ih
  | mark hblank hc _ ih => exact .mark hblank hc ih
  | @word word cs ts hword hne hcs _ ih =>
    have hnext : Delimited (cs ++ rest) := by
      cases cs with
      | nil => exact hrest
      | cons c cs => exact delimited_cons _ (hcs c rfl)
    rw [List.append_assoc]
    exact .word hword hne hnext ih

/-! ### Expressions and their tokens -/

mutual

def tokensOnto (rest : List Token) : Expr → List Token
  | .literal v => .word (.ofList (literalText v)) :: rest
  | .property path => .word path.toText :: rest
  | .not e => .word "not" :: .opening :: tokensOnto (.closing :: rest) e
  | .neg e => .word "-" :: .opening :: tokensOnto (.closing :: rest) e
  | .binary op lhs rhs =>
    .opening :: tokensOnto (.word op.keyword :: tokensOnto (.closing :: rest) rhs) lhs
  | .call f [] => .word f.name :: .opening :: .closing :: rest
  | .call f (arg :: args) =>
    .word f.name :: .opening :: tokensOnto (argTokens (.closing :: rest) args) arg

/-- The tokens of the arguments after the first, put in front of `rest`. -/
def argTokens (rest : List Token) : List Expr → List Token
  | [] => rest
  | arg :: args => .comma :: tokensOnto (argTokens rest args) arg

end

/-- The values whose type shows in their literals, floats and points in time apart. -/
def isLegible : Value → Bool
  | .null | .boolean _ | .int32 _ | .int64 _ | .decimal _ | .string _ | .guid _ | .binary _ => true
  | _ => false

/-- The paths that are read from their texts just as they are. -/
structure LegiblePath (path : Path) : Prop where
  ne_nil : path ≠ []
  name_ne_empty : ∀ name ∈ path, name ≠ ""
  not_blank : ∀ name ∈ path, ∀ c ∈ name.toList, Text.isBlank c = false
  not_mark : ∀ name ∈ path, ∀ c ∈ name.toList, c ∉ ['\'', '(', ')', ',', '/']
  ne_keyword : ∀ op : BinaryOp, path.toText ≠ op.keyword
  ne_reserved : path.toText ∉ ["not", "null", "true", "false"]
  not_number : ∀ c ∈ path.toText.toList.head?, c.isDigit = false ∧ c ≠ '-'

inductive Legible : Expr → Prop where
  | literal {v : Value} (h : isLegible v = true) : Legible (.literal v)
  | property {path : Path} (h : LegiblePath path) : Legible (.property path)
  | not {e : Expr} (h : Legible e) : Legible (.not e)
  | neg {e : Expr} (h : Legible e) : Legible (.neg e)
  | binary (op : BinaryOp) {lhs rhs : Expr} (hlhs : Legible lhs) (hrhs : Legible rhs)
      : Legible (.binary op lhs rhs)
  | call (f : Builtin) {args : List Expr} (h : ∀ arg ∈ args, Legible arg) : Legible (.call f args)

theorem isExact_of_isLegible {v : Value} (h : isLegible v = true) : v.isExact = true := by
  cases v with
  | byte | sbyte | int16 | single | double | dateTime | dateTimeOffset | time => cases h
  | _ => rfl

theorem form_literalText {v : Value} (h : isLegible v = true)
    : Literal.Form v (literalText v) := by
  obtain ⟨text, henc, hform⟩ := Literal.exists_form (isExact_of_isLegible h)
  unfold literalText
  rw [henc]
  exact hform

namespace LegiblePath

variable {path : Path}

theorem toList_toText (path : Path)
    : path.toText.toList = ['/'].intercalate (path.map String.toList) := by
  exact String.toList_intercalate

theorem isPlain_of_mem (h : LegiblePath path) {c : Char} (hc : c ∈ path.toText.toList)
    : isPlain c = true := by
  rw [toList_toText] at hc
  rcases Text.eq_or_mem_of_mem_intercalate hc with rfl | hc
  . rfl
  . obtain ⟨cs, hcs, hc⟩ := List.mem_flatten.mp hc
    obtain ⟨name, hname, rfl⟩ := List.mem_map.mp hcs
    have hblank := h.not_blank name hname c hc
    have hmark := h.not_mark name hname c hc
    simp only [List.mem_cons, List.not_mem_nil, or_false, not_or] at hmark
    unfold isPlain isDelimiter mark?
    simp [hblank, hmark]

theorem toText_ne_nil (h : LegiblePath path) : path.toText.toList ≠ [] := by
  obtain ⟨name, path, rfl⟩ := List.exists_cons_of_ne_nil h.ne_nil
  rw [toList_toText]
  have hname : name.toList ≠ [] := by
    intro heq
    exact h.name_ne_empty name List.mem_cons_self (String.toList_eq_nil_iff.mp heq)
  cases path with
  | nil => simpa using hname
  | cons next path => simp [List.intercalate_cons_cons]

end LegiblePath

/-! ### Written expressions -/

theorem lexes_text (word : String) {cs : List Char} {ts : List Token}
    (hword : isWord false word.toList = true) (hne : word.toList ≠ []) (hcs : Delimited cs)
    (h : Lexes cs ts) : Lexes (word.toList ++ cs) (.word word :: ts) := by
  have hlexes := Lexes.word hword hne hcs h
  rwa [String.ofList_toList] at hlexes

theorem lexes_opening {cs : List Char} {ts : List Token} (h : Lexes cs ts)
    : Lexes ('(' :: cs) (.opening :: ts) := .mark rfl rfl h

theorem lexes_closing {cs : List Char} {ts : List Token} (h : Lexes cs ts)
    : Lexes (')' :: cs) (.closing :: ts) := .mark rfl rfl h

theorem lexes_comma {cs : List Char} {ts : List Token} (h : Lexes cs ts)
    : Lexes (',' :: ' ' :: cs) (.comma :: ts) := .mark rfl rfl (.blank rfl h)

theorem lexes_operator (op : BinaryOp) {cs : List Char} {ts : List Token} (h : Lexes cs ts)
    : Lexes (' ' :: (op.keyword.toList ++ ' ' :: cs)) (.word op.keyword :: ts) := by
  have hword : isWord false op.keyword.toList = true ∧ op.keyword.toList ≠ [] := by
    cases op with
    | or | and => decide
    | comparison c => cases c <;> decide
    | arithmetic op => cases op <;> decide
  exact .blank rfl (lexes_text _ hword.1 hword.2 (delimited_cons cs rfl) (.blank rfl h))

theorem lexes_name (f : Builtin) {cs : List Char} {ts : List Token} (h : Lexes cs ts)
    : Lexes (f.name.toList ++ '(' :: cs) (.word f.name :: .opening :: ts) := by
  have hword : isWord false f.name.toList = true ∧ f.name.toList ≠ [] := by
    cases f <;> decide
  exact lexes_text _ hword.1 hword.2 (delimited_cons cs rfl) (lexes_opening h)

/-- What is written in front of a text has its own tokens in front of the tokens of the text. -/
def LexesOnto (e : Expr) : Prop :=
  ∀ {rest : List Char} {ts : List Token}, Delimited rest → Lexes rest ts →
    Lexes (writeOnto rest e) (tokensOnto ts e)

theorem delimited_writeArgs {rest : List Char} (args : List Expr) (h : Delimited rest)
    : Delimited (writeArgs rest args) := by
  cases args with
  | nil => exact h
  | cons arg args => exact delimited_cons _ rfl

theorem lexes_writeArgs {args : List Expr} (h : ∀ arg ∈ args, LexesOnto arg) {rest : List Char}
    {ts : List Token} (hrest : Delimited rest) (hts : Lexes rest ts)
    : Lexes (writeArgs rest args) (argTokens ts args) := by
  induction args with
  | nil => exact hts
  | cons arg args ih =>
    rw [List.forall_mem_cons] at h
    rw [writeArgs, argTokens]
    exact lexes_comma (h.1 (delimited_writeArgs args hrest) (ih h.2))

theorem lexes_writeOnto {e : Expr} (h : Legible e) : LexesOnto e := by
  induction h with
  | literal hv =>
    intro rest ts hrest hts
    rw [writeOnto, tokensOnto]
    exact .word (form_literalText hv).isWord (form_literalText hv).ne_nil hrest hts
  | property hpath =>
    intro rest ts hrest hts
    rw [writeOnto, tokensOnto]
    exact lexes_text _ (isWord_of_isPlain fun c hc => hpath.isPlain_of_mem hc) hpath.toText_ne_nil
      hrest hts
  | not _ ih =>
    intro rest ts hrest hts
    rw [writeOnto, tokensOnto]
    exact lexes_text "not" rfl (by decide) (delimited_cons _ rfl)
      (.blank rfl (lexes_opening (ih (delimited_cons _ rfl) (lexes_closing hts))))
  | neg _ ih =>
    intro rest ts hrest hts
    rw [writeOnto, tokensOnto]
    exact lexes_text "-" rfl (by decide) (delimited_cons _ rfl)
      (lexes_opening (ih (delimited_cons _ rfl) (lexes_closing hts)))
  | binary op _ _ ihl ihr =>
    intro rest ts hrest hts
    rw [writeOnto, tokensOnto]
    have hrhs := ihr (delimited_cons rest rfl) (lexes_closing hts)
    exact lexes_opening (ihl (delimited_cons _ rfl) (lexes_operator op hrhs))
  | @call f args _ ih =>
    intro rest ts hrest hts
    cases args with
    | nil =>
      rw [writeOnto, tokensOnto]
      exact lexes_name f (lexes_closing hts)
    | cons arg args =>
      rw [List.forall_mem_cons] at ih
      rw [writeOnto, tokensOnto]
      have hend : Delimited (')' :: rest) := delimited_cons rest rfl
      exact lexes_name f (ih.1 (delimited_writeArgs args hend)
        (lexes_writeArgs ih.2 hend (lexes_closing hts)))

theorem tokens_toText {e : Expr} (h : Legible e)
    : ∃ ls, tokens e.toText = .ok ls ∧ ls.map (·.token) = tokensOnto [] e := by
  apply tokens_of_lexes
  unfold toText
  rw [String.toList_ofList]
  exact lexes_writeOnto h delimited_nil .nil

end Edm.Expr
