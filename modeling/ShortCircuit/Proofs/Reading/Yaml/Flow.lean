import ShortCircuit.Proofs.Reading.Yaml.Words

/-!
# Reading flow mappings

How the lexer gets through a flow mapping whose keys are quoted words. `Lexer.Leads` says that it
comes from one place to another by reading a number of tokens; there is one lemma for each kind of
token. What it has read is partly handed on and partly kept, so a place is given by all tokens
read up to it and by the characters ahead, wherever the tokens are.
-/

namespace ShortCircuit.Yaml
namespace Lexer

/-- The lexer has come to where `tokens` have been read, handed on or not, and `ahead` follows. No
block collection is open, and nothing has to be a key. -/
structure Reached (tokens : List Token) (ahead : List Char) (before : List Token) (l : Lexer) :
    Prop where
  read : before.reverse ++ l.waiting = tokens
  taken : l.taken = before.length
  rest : l.cursor.rest = ahead
  beyond : l.cursor.beyond = none
  indents : l.indents = []
  going : l.isDone = false
  candidates : ∀ k ∈ l.candidates, k.required = false ∧ k.number ≤ tokens.length

/-- The lexer has come there inside a flow mapping. -/
structure InFlow (tokens : List Token) (ahead : List Char) (keyAllowed : Bool)
    (before : List Token) (l : Lexer) : Prop extends Reached tokens ahead before l where
  level : l.level = 1
  allowed : l.keyAllowed = keyAllowed

variable {tokens : List Token} {ahead gap rest : List Char} {ch : Char} {keyAllowed : Bool}
  {before : List Token} {l : Lexer} {fuel : Nat}

theorem Reached.dropStale (h : Reached tokens ahead before l) :
    l.dropStale = .ok { l with candidates := l.candidates.filter fun k ↦ !l.isStale k } ∧
      Reached tokens ahead before
        { l with candidates := l.candidates.filter fun k ↦ !l.isStale k } := by
  have hnone : (l.candidates.any fun k ↦ l.isStale k && k.required) = false := by
    simp only [List.any_eq_false]
    intro k hk
    simp [show k.required = false from (h.candidates k hk).1]
  constructor
  · rw [Lexer.dropStale, hnone]
    rfl
  · exact { h with candidates := fun k hk ↦ h.candidates k (List.mem_filter.mp hk |>.1) }

theorem Reached.handOn (h : Reached tokens ahead before l) :
    Reached tokens ahead (l.handOn before).1 (l.handOn before).2 := by
  have hlength := congrArg List.length h.read
  have htaken := h.taken
  rw [List.length_append, List.length_reverse] at hlength
  have hready : l.ready ≤ l.waiting.length := by
    unfold ready
    split
    case h_1 k hk =>
      have hnumber := (h.candidates k (List.mem_of_getLast? hk)).2
      omega
    case h_2 => exact Nat.le_refl _
  exact { h with
    read := by simp [Lexer.handOn, ← h.read]
    taken := by simp [Lexer.handOn, htaken, Nat.min_eq_left hready, Nat.add_comm] }

/-- Nothing behind the candidates is handed on. -/
theorem length_handOn_le (htaken : l.taken = before.length) {m : Nat} (hm : before.length ≤ m)
    (hne : l.candidates ≠ []) (hcandidates : ∀ k ∈ l.candidates, k.number ≤ m) :
    (l.handOn before).1.length ≤ m := by
  have hready : l.ready ≤ m - before.length := by
    unfold ready
    split
    case h_1 k hk =>
      have hnumber := hcandidates k (List.mem_of_getLast? hk)
      omega
    case h_2 hnone => exact absurd (List.getLast?_eq_none_iff.mp hnone) hne
  simp only [handOn, List.length_append, List.length_reverse, List.length_take]
  omega

/-- What a lexer hands on before it reads another token changes nothing. -/
theorem Reached.run_succ (h : Reached tokens ahead before l) (scalarFuel fuel : Nat) :
    ∃ before' l', Reached tokens ahead before' l' ∧
      (l'.cursor = l.cursor ∧ l'.level = l.level ∧ l'.keyAllowed = l.keyAllowed) ∧
      l'.candidates = l.candidates.filter (fun k ↦ !l.isStale k) ∧
      (∀ m, before.length ≤ m → (∀ k ∈ l.candidates, k.number ≤ m) →
        (∃ k ∈ l.candidates, l.isStale k = false) → before'.length ≤ m) ∧
      run scalarFuel (fuel + 1) before l = match l'.fetch scalarFuel >>= checkCutOff with
        | .error e => ⟨before'.reverse, some e⟩
        | .ok l => run scalarFuel fuel before' l := by
  obtain ⟨hstale, hreached⟩ := h.dropStale
  refine ⟨_, _, hreached.handOn, ⟨rfl, rfl, rfl⟩, rfl,
    fun m hm hcandidates ⟨k, hk, hcurrent⟩ ↦ ?_, ?_⟩
  · have hmem : k ∈ l.candidates.filter fun k ↦ !l.isStale k :=
      List.mem_filter.mpr ⟨hk, by simp [hcurrent]⟩
    exact length_handOn_le hreached.taken hm (List.ne_nil_of_mem hmem) fun k hk ↦
      hcandidates k (List.mem_filter.mp hk).1
  · rw [run, if_neg (by simp [h.going])]
    exact hstale ▸ rfl

theorem checkCutOff_eq (hbeyond : l.cursor.beyond = none) : l.checkCutOff = .ok l := by
  have hnone : l.cursor.cutOff? = none := by simp [Cursor.cutOff?, hbeyond]
  rw [checkCutOff, hnone]

/-- A character that starts a token in a flow mapping. -/
structure Starts (ch : Char) : Prop where
  space : ch ≠ ' '
  comment : ch ≠ '#'
  lineEnd : isBreak ch = false
  mark : ch ≠ '\uFEFF'

theorem starts_of_isAlpha (hch : ch.isAlpha) : Starts ch where
  space := ne_of_isAlpha hch rfl
  comment := ne_of_isAlpha hch rfl
  lineEnd := isBreak_of_isAlpha hch
  mark := ne_of_isAlpha hch rfl

theorem InFlow.skipToToken
    (h : InFlow tokens (gap ++ ch :: rest) keyAllowed before l)
    (hgap : ∀ c ∈ gap, c = ' ' ∨ c = '\n') (hch : Starts ch) (hfuel : gap.length < fuel) :
    InFlow tokens (ch :: rest) keyAllowed before (skipToToken fuel l) ∧
      (skipToToken fuel l).candidates = l.candidates ∧
      (gap = [] → (skipToToken fuel l).cursor = l.cursor) := by
  induction fuel generalizing gap l with
  | zero => exact absurd hfuel (Nat.not_lt_zero _)
  | succ fuel ih =>
    have hspaces : ∀ c ∈ gap.takeWhile (· == ' '), c = ' ' :=
      fun c hc ↦ by simpa using List.all_eq_true.mp List.all_takeWhile c hc
    have hsplit : gap.takeWhile (· == ' ') ++ gap.dropWhile (· == ' ') = gap :=
      List.takeWhile_append_dropWhile
    have hhead := List.head?_dropWhile_not (· == ' ') gap
    generalize gap.takeWhile (· == ' ') = spaces at hsplit hspaces
    generalize gap.dropWhile (· == ' ') = lines at hsplit hhead
    subst hsplit
    have hrest := h.rest
    rw [List.append_assoc] at hrest
    cases lines with
    | nil =>
      have hblanks : l.cursor.skipSpaces = l.cursor.skip spaces.length :=
        Cursor.skipSpaces_eq hrest hspaces hch.space
      have hrest' : (l.cursor.skip spaces.length).rest = ch :: rest := by
        rw [Cursor.skip_rest, hrest, List.drop_left]
        rfl
      have hpeek : (l.cursor.skip spaces.length).peek.any isBreak = false := by
        simp [Cursor.peek, hrest', hch.lineEnd]
      rw [Lexer.skipToToken, hblanks, Cursor.skipComment_eq hrest' hch.comment, hpeek]
      refine ⟨{ h with rest := hrest', beyond := ?_ }, rfl, fun hnil ↦ ?_⟩
      · rw [← h.beyond]
        exact Cursor.skip_beyond _ _
      · obtain rfl : spaces = [] := by simpa using hnil
        rfl
    | cons c lines =>
      obtain rfl : c = '\n' := by
        have hne : c ≠ ' ' := by simpa using hhead
        exact (hgap c (by simp)).resolve_left hne
      have hblanks : l.cursor.skipSpaces = l.cursor.skip spaces.length :=
        Cursor.skipSpaces_eq hrest hspaces (by decide)
      have hrest' : (l.cursor.skip spaces.length).rest = '\n' :: (lines ++ ch :: rest) := by
        rw [Cursor.skip_rest, hrest, List.drop_left]
        rfl
      have hpeek : (l.cursor.skip spaces.length).peek.any isBreak = true := by
        simp [Cursor.peek, hrest', isBreak]
      rw [Lexer.skipToToken, hblanks, Cursor.skipComment_eq hrest' (by decide), hpeek]
      have hnext : InFlow tokens (lines ++ ch :: rest) keyAllowed before
          { l with
            cursor := (l.cursor.skip spaces.length).next
            keyAllowed := l.keyAllowed || !l.inFlow } := by
        refine { h with rest := ?_, beyond := ?_, allowed := ?_ }
        · rw [Cursor.next_rest, hrest']
          rfl
        · rw [← h.beyond]
          exact (Cursor.next_beyond _).trans (Cursor.skip_beyond _ _)
        · simp [inFlow, h.level, h.allowed]
      obtain ⟨hreached, hcandidates, -⟩ := ih hnext (fun c hc ↦ hgap c (by simp [hc])) (by
        simp at hfuel
        omega)
      exact ⟨hreached, hcandidates, fun hnil ↦ by simp at hnil⟩

/-- From before a token the lexer comes to stand at it. -/
structure Approaches (fuel : Nat) (l l' : Lexer) : Prop where
  run : ((Lexer.skipToToken fuel l.skipMark).checkCutOff >>= Lexer.dropStale) = .ok l'
  candidates : l'.candidates = l.candidates.filter fun k ↦ !l'.isStale k

theorem InFlow.skipMark (h : InFlow tokens (gap ++ ch :: rest) keyAllowed before l)
    (hgap : ∀ c ∈ gap, c = ' ' ∨ c = '\n') (hch : Starts ch) : l.skipMark = l := by
  have hsees : l.cursor.sees '\uFEFF' = false := by
    cases gap with
    | nil => simp [Cursor.sees, Cursor.peek, h.rest, hch.mark]
    | cons c gap =>
      have hc : c ≠ '\uFEFF' := by rcases hgap c List.mem_cons_self with rfl | rfl <;> decide
      simp [Cursor.sees, Cursor.peek, h.rest, hc]
  rw [Lexer.skipMark, hsees, Bool.and_false, if_neg Bool.false_ne_true]

theorem InFlow.approach (h : InFlow tokens (gap ++ ch :: rest) keyAllowed before l)
    (hgap : ∀ c ∈ gap, c = ' ' ∨ c = '\n') (hch : Starts ch) (hfuel : gap.length < fuel) :
    ∃ l', Approaches fuel l l' ∧ InFlow tokens (ch :: rest) keyAllowed before l' ∧
      (gap = [] → l'.cursor = l.cursor) := by
  obtain ⟨hreached, hcandidates, hcursor⟩ := h.skipToToken hgap hch hfuel
  obtain ⟨hstale, hreached'⟩ := hreached.dropStale
  refine ⟨_, ⟨?_, ?_⟩, ⟨hreached', hreached.level, hreached.allowed⟩, hcursor⟩
  · rw [h.skipMark hgap hch, checkCutOff_eq hreached.beyond]
    exact hstale
  · rw [← hcandidates]
    rfl

/-! ### The token at a character -/

section

variable {l' : Lexer}

theorem InFlow.inFlow (h : InFlow tokens ahead keyAllowed before l) : l.inFlow = true := by
  simp [Lexer.inFlow, h.level]

theorem InFlow.closeBlocks (h : InFlow tokens ahead keyAllowed before l) (keep : Nat → Bool) :
    l.closeBlocks keep = l := by
  rw [Lexer.closeBlocks, if_pos h.inFlow]

theorem InFlow.peek (h : InFlow tokens (ch :: rest) keyAllowed before l) :
    l.cursor.peek = some ch := by
  simp [Cursor.peek, h.rest]

theorem InFlow.seesThrice (h : InFlow tokens (ch :: rest) keyAllowed before l) {other : Char}
    (hne : ch ≠ other) : l.cursor.seesThrice other = false :=
  Cursor.seesThrice_eq_false h.rest hne

theorem fetch_quote (happroach : Approaches fuel l l')
    (h : InFlow tokens ('"' :: rest) keyAllowed before l') :
    l.fetch fuel = readQuoted fuel l' true := by
  rw [fetch, ← bind_assoc, happroach.run]
  simp [bind, Except.bind, h.closeBlocks, h.peek, h.seesThrice]

theorem fetch_comma (happroach : Approaches fuel l l')
    (h : InFlow tokens (',' :: rest) keyAllowed before l') : l.fetch fuel = l'.readComma := by
  rw [fetch, ← bind_assoc, happroach.run]
  simp [bind, Except.bind, h.closeBlocks, h.peek, h.seesThrice]

theorem fetch_colon (happroach : Approaches fuel l l')
    (h : InFlow tokens (':' :: rest) keyAllowed before l') : l.fetch fuel = l'.readValue := by
  rw [fetch, ← bind_assoc, happroach.run]
  simp [bind, Except.bind, h.closeBlocks, h.peek, h.seesThrice, h.inFlow]

theorem fetch_close (happroach : Approaches fuel l l')
    (h : InFlow tokens ('\x7d' :: rest) keyAllowed before l') :
    l.fetch fuel = l'.closeFlow .flowMappingEnd := by
  rw [fetch, ← bind_assoc, happroach.run]
  simp [bind, Except.bind, h.closeBlocks, h.peek, h.seesThrice]

theorem startsPlain_of_isAlpha (hch : ch.isAlpha) (following : Option Char) :
    l.startsPlain ch following = true := by
  have hindicator : indicators.contains ch = false := by
    refine Bool.eq_false_iff.mpr fun hmem ↦ ?_
    have hall : (indicators.any Char.isAlpha) = false := by decide
    rw [List.contains_iff_mem] at hmem
    exact List.any_eq_false.mp hall ch hmem hch
  rw [startsPlain, isBlank_of_isAlpha hch, hindicator]
  rfl

theorem fetch_letter (happroach : Approaches fuel l l') (hch : ch.isAlpha)
    (h : InFlow tokens (ch :: rest) keyAllowed before l') :
    l.fetch fuel = readPlain fuel l' := by
  have hne := beq_of_isAlpha hch
  rw [fetch, ← bind_assoc, happroach.run]
  simp only [bind, Except.bind, h.closeBlocks, h.peek]
  rw [hne '%' (by decide), h.seesThrice (beq_eq_false_iff_ne.mp (hne '-' (by decide))),
    h.seesThrice (beq_eq_false_iff_ne.mp (hne '.' (by decide)))]
  simp only [Bool.false_and, Bool.and_false, Bool.false_eq_true, if_false]
  split
  case h_11 =>
    simp only [hne '-' (by decide), hne '?' (by decide), hne ':' (by decide), hne '|' (by decide),
      hne '>' (by decide), startsPlain_of_isAlpha hch, Bool.false_and, Bool.false_eq_true, if_false,
      if_true]
  all_goals exact absurd hch (by decide)

end

/-- One token further: the lexer comes to stand at it, with what has been read handed on or not, and
goes on from where reading it leads to. -/
theorem InFlow.step (h : InFlow tokens (gap ++ ch :: rest) keyAllowed before l)
    (hgap : ∀ c ∈ gap, c = ' ' ∨ c = '\n') (hch : Starts ch) (hfuel : gap.length < fuel) (n : Nat) :
    ∃ before' l', InFlow tokens (ch :: rest) keyAllowed before' l' ∧
      (∃ p, l'.candidates = l.candidates.filter p ∧
        (gap = [] → ∀ k, l.isStale k = false → p k = true)) ∧
      (∀ m, before.length ≤ m → (∀ k ∈ l.candidates, k.number ≤ m) →
        (∃ k ∈ l.candidates, l.isStale k = false) → before'.length ≤ m) ∧
      ∀ next : Lexer, (∀ l₁, Approaches fuel l₁ l' → l₁.fetch fuel = .ok next) →
        next.cursor.beyond = none → run fuel (n + 1) before l = run fuel n before' next := by
  obtain ⟨before', l₁, hreached₁, ⟨hcursor₁, hlevel₁, hallowed₁⟩, hcandidates₁, hlength, hrun⟩ :=
    h.run_succ fuel n
  obtain ⟨l', happroach, hreached', hcursor'⟩ := InFlow.approach
    ⟨hreached₁, hlevel₁.trans h.level, hallowed₁.trans h.allowed⟩ hgap hch hfuel
  refine ⟨before', l', hreached', ⟨fun k ↦ !l'.isStale k && !l.isStale k, ?_, fun hnil k hk ↦ ?_⟩,
    hlength, fun next hnext hbeyond ↦ ?_⟩
  · rw [happroach.candidates, hcandidates₁, List.filter_filter]
  · have hstale : l'.isStale k = l.isStale k := by
      rw [isStale, isStale, hcursor' hnil, hcursor₁]
    simp [hstale, hk]
  · rw [hrun, hnext l₁ happroach]
    change (match next.checkCutOff with | .error e => _ | .ok l => _) = _
    rw [checkCutOff_eq hbeyond]

/-- Emitting a token that ends at a place inside the text. -/
theorem InFlow.emitUpTo (h : InFlow tokens ahead keyAllowed before l) (t : Token) {c : Cursor}
    {ahead' : List Char} (hrest : c.rest = ahead') (hbeyond : c.beyond = none) (allowed : Bool) :
    InFlow (tokens ++ [t]) ahead' allowed before ((l.allowKey allowed).emitUpTo t c) where
  read := by simp [Lexer.emitUpTo, emit, allowKey, ← h.read]
  taken := h.taken
  rest := hrest
  beyond := hbeyond
  indents := h.indents
  level := h.level
  allowed := rfl
  going := h.going
  candidates k hk := by
    obtain ⟨hrequired, hnumber⟩ := h.candidates k hk
    exact ⟨hrequired, by simp; omega⟩

/-- Emitting a token of one character. -/
theorem InFlow.emitOver (h : InFlow tokens (ch :: rest) keyAllowed before l) (t : Token)
    (allowed : Bool) :
    InFlow (tokens ++ [t]) rest allowed before
      ((l.allowKey allowed).emitUpTo t (l.cursor.skip 1)) := by
  have hrest : (l.cursor.skip 1).rest = rest := by
    rw [Cursor.skip_rest, h.rest]
    rfl
  exact h.emitUpTo t hrest (by rw [Cursor.skip_beyond, h.beyond]) allowed

/-- Inside a flow mapping, where no key has been started. -/
structure Stands (tokens : List Token) (ahead : List Char) (keyAllowed : Bool)
    (before : List Token) (l : Lexer) : Prop extends InFlow tokens ahead keyAllowed before l where
  outer : ∀ k ∈ l.candidates, k.level = 0

theorem dropCandidate_eq (hlevel : l.level = 1) (houter : ∀ k ∈ l.candidates, k.level = 0) :
    l.dropCandidate = .ok l := by
  unfold dropCandidate
  split
  case h_1 k outer hcandidates =>
    have hk : k.level = 0 := houter k (by simp [hcandidates])
    rw [hk, hlevel]
    rfl
  case h_2 => rfl

/-- The quoted word at which the lexer stands. -/
theorem InFlow.quoted {word : List Char}
    (h : InFlow tokens ('"' :: (word ++ '"' :: rest)) keyAllowed before l)
    (hword : ∀ ch ∈ word, ch.isAlpha) (hfuel : word.length < fuel) :
    Quoted.read fuel true l.cursor =
        .ok (.ofChars word, l.cursor.skip (word.length + 2)) ∧
      (l.cursor.skip (word.length + 2)).rest = rest := by
  have hnext : l.cursor.next.rest = word ++ '"' :: rest := by
    rw [Cursor.next_rest, h.rest]
    rfl
  constructor
  · exact Quoted.readFrom_letters hword [] hfuel hnext
  · change ((l.cursor.next).skip (word.length + 1)).rest = rest
    rw [Cursor.skip_rest, hnext]
    simp

/-- Whatever stands at the one leads to what stands at the other, by reading a number of tokens. -/
def Leads (fuel count : Nat) (P Q : List Token → Lexer → Prop) : Prop :=
  ∀ before l, P before l → ∀ n, ∃ before' l', Q before' l' ∧
    run fuel (n + count) before l = run fuel n before' l'

theorem Leads.trans {count count' : Nat} {P Q R : List Token → Lexer → Prop}
    (h : Leads fuel count P Q) (h' : Leads fuel count' Q R) : Leads fuel (count' + count) P R := by
  intro before l hl n
  obtain ⟨before₁, l₁, hl₁, hrun₁⟩ := h before l hl (n + count')
  obtain ⟨before₂, l₂, hl₂, hrun₂⟩ := h' before₁ l₁ hl₁ n
  exact ⟨before₂, l₂, hl₂, by rw [← Nat.add_assoc, hrun₁, hrun₂]⟩

/-- The lexer comes to stand at a token, and goes on from where reading it leads to. -/
def ComesTo (fuel n : Nat) (P : List Token → Lexer → Prop) (before : List Token) (l : Lexer) :
    Prop :=
  ∃ before' l', P before' l' ∧
    ∀ next : Lexer, (∀ l₁, Approaches fuel l₁ l' → l₁.fetch fuel = .ok next) →
      next.cursor.beyond = none → run fuel (n + 1) before l = run fuel n before' next

theorem Stands.step (h : Stands tokens (gap ++ ch :: rest) keyAllowed before l)
    (hgap : ∀ c ∈ gap, c = ' ' ∨ c = '\n') (hch : Starts ch) (hfuel : gap.length < fuel) (n : Nat) :
    ComesTo fuel n (Stands tokens (ch :: rest) keyAllowed) before l := by
  obtain ⟨before', l', hreached, ⟨p, hcandidates, -⟩, -, hstep⟩ := h.toInFlow.step hgap hch hfuel n
  refine ⟨before', l', ⟨hreached, fun k hk ↦ ?_⟩, hstep⟩
  rw [hcandidates] at hk
  exact h.outer k (List.mem_filter.mp hk).1

/-- A step from right before a token. -/
theorem Stands.step_here (h : Stands tokens (ch :: rest) keyAllowed before l) (hch : Starts ch)
    (hfuel : 0 < fuel) (n : Nat) :
    ComesTo fuel n (Stands tokens (ch :: rest) keyAllowed) before l :=
  have hhere : Stands tokens ([] ++ ch :: rest) keyAllowed before l := h
  hhere.step (List.forall_mem_nil _) hch hfuel n

/-- A step over a space. -/
theorem Stands.step_space (h : Stands tokens (' ' :: ch :: rest) keyAllowed before l)
    (hch : Starts ch) (hfuel : 1 < fuel) (n : Nat) :
    ComesTo fuel n (Stands tokens (ch :: rest) keyAllowed) before l :=
  have hhere : Stands tokens ([' '] ++ ch :: rest) keyAllowed before l := h
  hhere.step (by simp) hch hfuel n

theorem leads_comma (hfuel : 0 < fuel) :
    Leads fuel 1 (Stands tokens (',' :: rest) keyAllowed)
      (Stands (tokens ++ [.comma]) rest true) := by
  intro before l h n
  obtain ⟨before', l', hl', hstep⟩ := h.step_here (by constructor <;> decide) hfuel n
  have hemitted := hl'.emitOver .comma true
  have hdrop : (l'.allowKey true).dropCandidate = .ok (l'.allowKey true) :=
    dropCandidate_eq hl'.level hl'.outer
  refine ⟨before', _, ⟨hemitted, hl'.outer⟩, hstep _ (fun l₁ happroach ↦ ?_) hemitted.beyond⟩
  rw [fetch_comma happroach hl'.toInFlow, readComma, hdrop]
  rfl

theorem leads_text {word : List Char} (hword : ∀ ch ∈ word, ch.isAlpha) (hfuel : 1 < fuel)
    (hfuel' : word.length < fuel) :
    Leads fuel 1 (Stands tokens (' ' :: '"' :: (word ++ '"' :: rest)) false)
      (Stands (tokens ++ [.scalar (.ofChars word) false]) rest false) := by
  intro before l h n
  obtain ⟨before', l', hl', hstep⟩ :=
    h.step_space (by constructor <;> decide) hfuel n
  obtain ⟨hread, hrest⟩ := hl'.quoted hword hfuel'
  have hemitted := hl'.emitUpTo (.scalar (.ofChars word) false) hrest
    (by rw [Cursor.skip_beyond, hl'.beyond]) false
  have hsave : l'.saveCandidate = .ok l' := by
    rw [saveCandidate, hl'.allowed, if_neg Bool.false_ne_true]
  refine ⟨before', _, ⟨hemitted, hl'.outer⟩, hstep _ (fun l₁ happroach ↦ ?_) hemitted.beyond⟩
  rw [fetch_quote happroach hl'.toInFlow, readQuoted, hsave]
  change (Quoted.read fuel true l'.cursor >>= _) = _
  rw [hread]
  rfl

theorem leads_word {word : List Char} (hword : ∀ ch ∈ word, ch.isAlpha) (hne : word ≠ [])
    (hfuel : 1 < fuel) (ends : Bool) :
    Leads fuel 1
      (Stands tokens (' ' :: (word ++ ((if ends then ['\n'] else []) ++ '\x7d' :: rest))) false)
      (Stands (tokens ++ [.scalar (.ofChars word) true]) ('\x7d' :: rest) ends) := by
  intro before l h n
  obtain ⟨ch, word, rfl⟩ := List.exists_cons_of_ne_nil hne
  have hch : ch.isAlpha := hword ch List.mem_cons_self
  obtain ⟨before', l', hl', hstep⟩ :=
    h.step_space (starts_of_isAlpha hch) hfuel n
  obtain ⟨after, hread, hrest, hbeyond⟩ := Plain.read_letters hword hne
    (l'.indents.head?.elim 0 (· + 1)) (Nat.ne_zero_of_lt hfuel) hl'.rest
  have hemitted := hl'.emitUpTo (.scalar (.ofChars (ch :: word)) true) hrest
    (hbeyond.trans hl'.beyond) ends
  have hsave : l'.saveCandidate = .ok l' := by
    rw [saveCandidate, hl'.allowed, if_neg Bool.false_ne_true]
  refine ⟨before', _, ⟨hemitted, hl'.outer⟩, hstep _ (fun l₁ happroach ↦ ?_) hemitted.beyond⟩
  have htext : Plain.Read.text ⟨(ch :: word).reverse, ends, after⟩ = .ofChars (ch :: word) := by
    rw [Plain.Read.text, List.reverse_reverse]
  have hread' : Plain.read fuel l'.inFlow (l'.indents.head?.elim 0 (· + 1)) l'.cursor =
      ⟨(ch :: word).reverse, ends, after⟩ := by rw [hl'.inFlow, hread]
  rw [fetch_letter happroach hch hl'.toInFlow, readPlain, hsave]
  simp only [bind, Except.bind, hread', htext]
  rfl

/-! ### Keys -/

/-- The candidate that a key at the current place would be. -/
def keyAt (tokens : List Token) (c : Cursor) : KeyCandidate :=
  ⟨tokens.length, false, 1, c.index, c.line, c.column⟩

theorem Stands.saveCandidate (h : Stands tokens ahead true before l) :
    l.saveCandidate = .ok { l with candidates := keyAt tokens l.cursor :: l.candidates } := by
  have hnumber : l.taken + l.waiting.length = tokens.length := by
    rw [← h.read, List.length_append, List.length_reverse, h.taken]
  have hkey : (⟨l.taken + l.waiting.length, !l.inFlow && l.indents.head? == some l.cursor.column,
      l.level, l.cursor.index, l.cursor.line, l.cursor.column⟩ : KeyCandidate) =
        keyAt tokens l.cursor := by
    rw [hnumber, h.inFlow, h.level]
    rfl
  rw [Lexer.saveCandidate, if_pos h.allowed, dropCandidate_eq h.level h.outer]
  exact congrArg (fun k ↦ Except.ok { l with candidates := k :: l.candidates }) hkey

/-- The key is still in reach at the end of a short word on its line. -/
theorem isStale_keyAt {word : List Char} {c : Cursor}
    (hrest : c.rest = '"' :: (word ++ '"' :: rest)) (hword : ∀ ch ∈ word, ch.isAlpha)
    (hshort : word.length + 2 ≤ keyLimit) (hcursor : l.cursor = c.skip (word.length + 2)) :
    l.isStale (keyAt tokens c) = false := by
  have hline : (c.skip ('"' :: (word ++ ['"'])).length).line = c.line := by
    have hsplit : c.rest = '"' :: (word ++ ['"']) ++ rest := by simp [hrest]
    refine Cursor.skip_line hsplit fun ch hch ↦ ?_
    simp only [List.mem_cons, List.mem_append, List.not_mem_nil, or_false] at hch
    rcases hch with rfl | hch | rfl
    · rfl
    · exact isBreak_of_isAlpha (hword ch hch)
    · rfl
  have hlength : ('"' :: (word ++ ['"'])).length = word.length + 2 := by simp
  rw [hlength] at hline
  have hindex := c.skip_index_le (word.length + 2)
  simp only [isStale, keyAt, hcursor, hline, bne_self_eq_false, Bool.false_or,
    decide_eq_false_iff_not]
  omega

/-- Right behind a key, which a candidate is kept for. -/
structure Keyed (tokens : List Token) (name : Token) (ahead : List Char) (before : List Token)
    (l : Lexer) : Prop extends InFlow (tokens ++ [name]) ahead false before l where
  key : ∃ k outer, l.candidates = k :: outer ∧ k.level = 1 ∧ k.number = tokens.length ∧
    l.isStale k = false ∧ ∀ k' ∈ outer, k'.level = 0 ∧ k'.number ≤ tokens.length
  length : before.length ≤ tokens.length

theorem leads_name {name : List Char} (hname : ∀ ch ∈ name, ch.isAlpha)
    (hgap : ∀ c ∈ gap, c = ' ' ∨ c = '\n') (hfuel : gap.length < fuel) (hfuel' : name.length < fuel)
    (hshort : name.length + 2 ≤ keyLimit) :
    Leads fuel 1 (Stands tokens (gap ++ '"' :: (name ++ '"' :: rest)) true)
      (Keyed tokens (.scalar (.ofChars name) false) rest) := by
  intro before l h n
  obtain ⟨before', l', hl', hstep⟩ := h.step hgap (by constructor <;> decide) hfuel n
  obtain ⟨hread, hrest⟩ := hl'.quoted hname hfuel'
  have hlength : before'.length ≤ tokens.length := by
    rw [← hl'.read, List.length_append, List.length_reverse]
    exact Nat.le_add_right _ _
  have hsaved : InFlow tokens ('"' :: (name ++ '"' :: rest)) true before'
      { l' with candidates := keyAt tokens l'.cursor :: l'.candidates } :=
    { hl' with candidates := List.forall_mem_cons.mpr ⟨⟨rfl, Nat.le_refl _⟩, hl'.candidates⟩ }
  have hemitted := hsaved.emitUpTo (.scalar (.ofChars name) false) hrest
    (by rw [Cursor.skip_beyond, hl'.beyond]) false
  refine ⟨before', _, ⟨hemitted, ⟨_, _, rfl, rfl, rfl, ?_, fun k hk ↦ ?_⟩, hlength⟩,
    hstep _ (fun l₁ happroach ↦ ?_) hemitted.beyond⟩
  · exact isStale_keyAt hl'.rest hname hshort rfl
  · exact ⟨hl'.outer k hk, (hl'.candidates k hk).2⟩
  · rw [fetch_quote happroach hl'.toInFlow, readQuoted, hl'.saveCandidate]
    change (Quoted.read fuel true l'.cursor >>= _) = _
    rw [hread]
    rfl

theorem insertIdx_length_append {α : Type} (xs ys : List α) (a : α) :
    (xs ++ ys).insertIdx xs.length a = xs ++ a :: ys := by
  induction xs with
  | nil => rfl
  | cons x xs ih => exact congrArg (x :: ·) ih

/-- What is put in front of the name among the tokens that wait comes in front of it among all. -/
theorem InFlow.read_insertAt {name : Token}
    (h : InFlow (tokens ++ [name]) ahead keyAllowed before l)
    (hlength : before.length ≤ tokens.length) (t : Token) :
    before.reverse ++ (l.insertAt tokens.length t).waiting = tokens ++ [t, name] := by
  have hread : before.reverse <+: tokens ++ [name] := ⟨_, h.read⟩
  obtain ⟨waiting, rfl⟩ : before.reverse <+: tokens :=
    List.prefix_of_prefix_length_le hread (List.prefix_append _ _) (by simpa using hlength)
  have hwaiting : l.waiting = waiting ++ [name] := by
    have hread := h.read
    rwa [List.append_assoc, List.append_cancel_left_eq] at hread
  have hindex : (before.reverse ++ waiting).length - l.taken = waiting.length := by
    simp [h.taken]
  rw [insertAt, hindex, hwaiting, insertIdx_length_append]
  simp

theorem leads_colon {name : Token} (hfuel : 0 < fuel) :
    Leads fuel 1 (Keyed tokens name (':' :: rest))
      (Stands (tokens ++ [.key, name, .value]) rest false) := by
  intro before l h n
  obtain ⟨k, outer, hcandidates, hlevel, hnumber, hcurrent, houter⟩ := h.key
  have hhere : InFlow (tokens ++ [name]) ([] ++ ':' :: rest) false before l := h.toInFlow
  obtain ⟨before', l', hl', ⟨p, hkept, hp⟩, hlength, hstep⟩ :=
    InFlow.step hhere (List.forall_mem_nil _) (by constructor <;> decide) hfuel n
  have hkey : l'.candidates = k :: outer.filter p := by
    rw [hkept, hcandidates, List.filter_cons_of_pos (hp rfl k hcurrent)]
  have hbefore : before'.length ≤ tokens.length := by
    refine hlength _ h.length ?_ ⟨k, by simp [hcandidates], hcurrent⟩
    rw [hcandidates]
    exact List.forall_mem_cons.mpr ⟨Nat.le_of_eq hnumber, fun k' hk' ↦ (houter k' hk').2⟩
  have houter' : ∀ k' ∈ outer.filter p, k'.level = 0 :=
    fun k' hk' ↦ (houter k' (List.mem_filter.mp hk').1).1
  have hconfirmed : InFlow (tokens ++ [.key, name]) (':' :: rest) false before'
      { l'.insertAt tokens.length .key with candidates := outer.filter p } :=
    { hl' with
      read := hl'.read_insertAt hbefore .key
      candidates := fun k' hk' ↦ by
        obtain ⟨hrequired, hle⟩ := hl'.candidates k' (by simp [hkey, hk'])
        exact ⟨hrequired, by simp at hle ⊢; omega⟩ }
  have hemitted := hconfirmed.emitOver .value false
  rw [List.append_assoc] at hemitted
  refine ⟨before', _, ⟨hemitted, houter'⟩, hstep _ (fun l₁ happroach ↦ ?_) hemitted.beyond⟩
  have hopens (column : Nat) : Lexer.opensBlock
      (({ l' with candidates := outer.filter p }.insertAt k.number .key).allowKey false) column =
        false := by
    simp [opensBlock, allowKey, insertAt, Lexer.inFlow, hl'.level]
  rw [fetch_colon happroach hl', readValue, hkey]
  dsimp only
  rw [if_pos (by simp [hlevel, hl'.level]), confirm, hopens, hnumber]
  rfl

theorem leads_key {name : List Char} (hname : ∀ ch ∈ name, ch.isAlpha)
    (hgap : ∀ c ∈ gap, c = ' ' ∨ c = '\n') (hfuel : gap.length < fuel) (hfuel' : name.length < fuel)
    (hshort : name.length + 2 ≤ keyLimit) :
    Leads fuel 2 (Stands tokens (gap ++ '"' :: (name ++ '"' :: ':' :: rest)) true)
      (Stands (tokens ++ [.key, .scalar (.ofChars name) false, .value]) rest false) :=
  (leads_name hname hgap hfuel hfuel' hshort).trans (leads_colon (Nat.zero_lt_of_lt hfuel))

/-! ### Start and end -/

theorem closeBlocks_eq (hindents : l.indents = []) (keep : Nat → Bool) :
    l.closeBlocks keep = l := by
  obtain ⟨cursor, taken, waiting, indents, level, allowed, candidates, isDone⟩ := l
  subst hindents
  unfold closeBlocks
  split <;> simp

theorem exists_dropCandidate (hcandidates : ∀ k ∈ l.candidates, k.required = false) :
    ∃ kept, l.dropCandidate = .ok { l with candidates := kept } := by
  unfold dropCandidate
  split
  case h_1 k rest hk =>
    split
    · exact ⟨l.candidates, rfl⟩
    · rw [hcandidates k (by simp [hk])]
      exact ⟨rest, rfl⟩
  case h_2 => exact ⟨l.candidates, rfl⟩

theorem Reached.finish (h : Reached tokens [] before l) :
    ∃ next, l.finish = .ok next ∧ next.isDone = true ∧
      before.reverse ++ next.waiting = tokens ++ [.streamEnd] ∧ next.cursor.beyond = none := by
  obtain ⟨kept, hdrop⟩ := exists_dropCandidate fun k hk ↦ (h.candidates k hk).1
  refine ⟨{ (l.emit .streamEnd) with keyAllowed := false, candidates := [], isDone := true }, ?_,
    rfl, by simp [emit, ← h.read], h.beyond⟩
  rw [Lexer.finish, closeBlocks_eq h.indents, hdrop]
  rfl

/-- At the end of the text the tokens are complete. -/
theorem Reached.run_end (h : Reached tokens [] before l) (n : Nat) :
    run fuel (n + 2) before l = ⟨tokens ++ [.streamEnd], none⟩ := by
  obtain ⟨before', l₁, hreached, -, -, -, hrun⟩ := h.run_succ fuel (n + 1)
  have hpeek : l₁.cursor.peek = none := by simp [Cursor.peek, hreached.rest]
  have hmark : l₁.skipMark = l₁ := by simp [skipMark, Cursor.sees, hpeek]
  have hskip : Lexer.skipToToken fuel l₁ = l₁ := by
    cases fuel with
    | zero => rfl
    | succ fuel =>
      simp [Lexer.skipToToken, Cursor.skipSpaces, Cursor.skipWhile, Cursor.skipComment, Cursor.sees,
        Cursor.peek, hreached.rest, Cursor.skip]
  obtain ⟨hstale, hreached'⟩ := hreached.dropStale
  obtain ⟨next, hfinish, hdone, hread, hbeyond⟩ := hreached'.finish
  have hfetch : l₁.fetch fuel = .ok next := by
    rw [fetch, hmark, hskip, checkCutOff_eq hreached.beyond]
    change (l₁.dropStale >>= _) = _
    rw [hstale]
    simp only [bind, Except.bind, closeBlocks_eq hreached'.indents, hpeek]
    exact hfinish
  rw [hrun, hfetch]
  change (match next.checkCutOff with | .error e => _ | .ok l => _) = _
  rw [checkCutOff_eq hbeyond]
  dsimp only
  rw [run, if_pos hdone, hread]

theorem leads_end (hfuel : 0 < fuel) (h : Stands tokens ['\x7d'] keyAllowed before l) (n : Nat) :
    run fuel (n + 3) before l = ⟨tokens ++ [.flowMappingEnd, .streamEnd], none⟩ := by
  obtain ⟨before', l', hl', hstep⟩ :=
    h.step_here (by constructor <;> decide) hfuel (n + 2)
  have hemitted := hl'.emitOver .flowMappingEnd false
  have hclosed : Reached (tokens ++ [.flowMappingEnd]) [] before'
      { (l'.allowKey false).emitOver .flowMappingEnd 1 with
        level := l'.level - 1, isDone := l'.level == 0 } :=
    { hemitted.toReached with going := by simp [hl'.level] }
  rw [hstep _ (fun l₁ happroach ↦ ?_) hclosed.beyond, hclosed.run_end,
    List.append_assoc]
  · rfl
  · rw [fetch_close happroach hl'.toInFlow, closeFlow, dropCandidate_eq hl'.level hl'.outer]
    rfl

theorem run_start (fuel n : Nat) (rest : List Char) :
    ∃ before l, Stands [.flowMappingStart] rest true before l ∧
      run fuel (n + 1) [] (.start ⟨'\x7b' :: rest, none⟩) = run fuel n before l := by
  have hskip : Lexer.skipToToken fuel (Lexer.start ⟨'\x7b' :: rest, none⟩) =
      .start ⟨'\x7b' :: rest, none⟩ := by
    cases fuel <;> rfl
  have hthrice (ch : Char) (hch : '\x7b' ≠ ch) :
      Cursor.seesThrice ⟨0, 0, 0, '\x7b' :: rest, none⟩ ch = false :=
    Cursor.seesThrice_eq_false rfl hch
  have hopened : fetch fuel (.start ⟨'\x7b' :: rest, none⟩) =
      openFlow (.start ⟨'\x7b' :: rest, none⟩) .flowMappingStart := by
    have hmark : (Lexer.start ⟨'\x7b' :: rest, none⟩).skipMark = .start ⟨'\x7b' :: rest, none⟩ :=
      rfl
    rw [fetch, hmark, hskip]
    simp [checkCutOff, Cursor.cutOff?, dropStale, start, Cursor.start, bind, Except.bind, hthrice,
      closeBlocks, Cursor.peek, inFlow]
  have hfetch : fetch fuel (.start ⟨'\x7b' :: rest, none⟩) =
      .ok ⟨⟨1, 0, 1, rest, none⟩, 0, [.flowMappingStart], [], 1, true, [⟨0, false, 0, 0, 0, 0⟩],
        false⟩ := hopened
  refine ⟨[], ⟨⟨1, 0, 1, rest, none⟩, 0, [.flowMappingStart], [], 1, true,
    [⟨0, false, 0, 0, 0, 0⟩], false⟩, ?_, ?_⟩
  · exact ⟨⟨⟨rfl, rfl, rfl, rfl, rfl, rfl, by simp⟩, rfl, rfl⟩, by simp⟩
  · change (match fetch fuel (.start ⟨'\x7b' :: rest, none⟩) >>= checkCutOff with
      | .error e => _ | .ok l => _) = _
    rw [hfetch]
    change (match Lexer.checkCutOff _ with | .error e => _ | .ok l => _) = _
    rw [checkCutOff_eq rfl]
    rfl

end Lexer

end ShortCircuit.Yaml
