import Mathlib.Data.List.TakeWhile
import SurfaceLoom.Scripts.StaticBoolean

/-! # The grammar of constant boolean expressions

What a text of an expression is, level by level and from left to right, and what it means
once every identifier has a truth value. The evaluator accepts exactly these texts, and a
truth value it returns is the one that every assignment gives. -/
namespace SurfaceLoom.Scripts.StaticBoolean
open SurfaceLoom.Core (isSpace)
open SurfaceLoom.Lib.Checked

/-! ## Texts and tokens -/

/-- A word of letters, digits and underscores that starts with no digit. -/
def IsWord (word : List Char) : Prop :=
  ∃ c rest, word = c :: rest ∧ isIdentifierStart c = true ∧ ∀ d ∈ rest, isIdentifierPart d = true

/-- How a token is written, and that it ends before `rest`: no longer token starts here. -/
inductive Spells : Token → List Char → List Char → Prop
  | and (rest : List Char) : Spells .and ['&', '&'] rest
  | or (rest : List Char) : Spells .or ['|', '|'] rest
  | eq (rest : List Char) : Spells .eq ['=', '='] rest
  | ne (rest : List Char) : Spells .ne ['!', '='] rest
  | not {rest : List Char} (ends : rest.head? ≠ some '=') : Spells .not ['!'] rest
  | opening (rest : List Char) : Spells .opening ['('] rest
  | closing (rest : List Char) : Spells .closing [')'] rest
  | word {word rest : List Char} (isWord : IsWord word)
      (ends : ∀ c, rest.head? = some c → isIdentifierPart c = false) :
      Spells (wordToken word) word rest

/-- The tokens of a text, with white space between them. -/
inductive Lexes : List Char → List Token → Prop
  | nil : Lexes [] []
  | space {c : Char} {rest : List Char} {tokens : List Token} (space : isSpace c = true)
      (lexes : Lexes rest tokens) : Lexes (c :: rest) tokens
  | token {token : Token} {word rest : List Char} {tokens : List Token}
      (spells : Spells token word rest) (lexes : Lexes rest tokens) :
      Lexes (word ++ rest) (token :: tokens)

theorem operator_eq_some {text rest : List Char} {token : Token} :
    operator text = some (token, rest) ↔
      (token = .and ∧ text = '&' :: '&' :: rest) ∨ (token = .or ∧ text = '|' :: '|' :: rest) ∨
      (token = .eq ∧ text = '=' :: '=' :: rest) ∨ (token = .ne ∧ text = '!' :: '=' :: rest) := by
  constructor
  · intro h
    unfold operator at h
    split at h <;> cases h <;> simp
  · rintro (⟨rfl, rfl⟩ | ⟨rfl, rfl⟩ | ⟨rfl, rfl⟩ | ⟨rfl, rfl⟩) <;> rfl

theorem symbol_eq_some {c : Char} {token : Token} : symbol c = some token ↔
    (token = .not ∧ c = '!') ∨ (token = .opening ∧ c = '(') ∨ (token = .closing ∧ c = ')') := by
  unfold symbol
  constructor
  · intro h
    split at h
    · cases h
      simp_all
    · split at h
      · cases h
        simp_all
      · split at h
        · cases h
          simp_all
        · cases h
  · rintro (⟨rfl, rfl⟩ | ⟨rfl, rfl⟩ | ⟨rfl, rfl⟩) <;> rfl

/-- A character that starts a word starts nothing else. -/
theorem isIdentifierStart_apart {c : Char} (h : isIdentifierStart c = true) (rest : List Char) :
    isSpace c = false ∧ operator (c :: rest) = none ∧ symbol c = none := by
  have hcode : (65 ≤ c.toNat ∧ c.toNat ≤ 90) ∨ (97 ≤ c.toNat ∧ c.toNat ≤ 122) ∨ c.toNat = 95 := by
    simp only [isIdentifierStart, Bool.or_eq_true, Bool.and_eq_true, decide_eq_true_eq] at h
    rcases h with (⟨hlow, hhigh⟩ | ⟨hlow, hhigh⟩) | rfl
    · exact .inl ⟨hlow, hhigh⟩
    · exact .inr (.inl ⟨hlow, hhigh⟩)
    · exact .inr (.inr rfl)
  have hne : ∀ d : Char, d.toNat < 65 ∨ d.toNat = 124 → c ≠ d := by
    intro d hd heq
    subst heq
    omega
  refine ⟨?_, ?_, ?_⟩
  · have hspace : c ≠ ' ' := hne _ (.inl (by decide))
    rw [Bool.eq_false_iff]
    intro hblank
    simp only [isSpace, Bool.or_eq_true, Bool.and_eq_true, decide_eq_true_eq, hspace, or_false]
      at hblank
    omega
  · rw [← Option.not_isSome_iff_eq_none, Option.isSome_iff_exists]
    rintro ⟨⟨token, after⟩, hsome⟩
    rcases operator_eq_some.mp hsome with ⟨-, heq⟩ | ⟨-, heq⟩ | ⟨-, heq⟩ | ⟨-, heq⟩
    · exact hne '&' (.inl (by decide)) (List.cons.inj heq).1
    · exact hne '|' (.inr (by decide)) (List.cons.inj heq).1
    · exact hne '=' (.inl (by decide)) (List.cons.inj heq).1
    · exact hne '!' (.inl (by decide)) (List.cons.inj heq).1
  · rw [← Option.not_isSome_iff_eq_none, Option.isSome_iff_exists]
    rintro ⟨token, hsome⟩
    rcases symbol_eq_some.mp hsome with ⟨-, heq⟩ | ⟨-, heq⟩ | ⟨-, heq⟩
    · exact hne '!' (.inl (by decide)) heq
    · exact hne '(' (.inl (by decide)) heq
    · exact hne ')' (.inl (by decide)) heq

/-- A symbol that no operator starts with here. -/
theorem operator_symbol {c : Char} {rest : List Char} {token : Token} (h : symbol c = some token)
    (hends : token = .not → rest.head? ≠ some '=') : operator (c :: rest) = none := by
  rw [← Option.not_isSome_iff_eq_none, Option.isSome_iff_exists]
  rintro ⟨⟨other, after⟩, hsome⟩
  rcases symbol_eq_some.mp h with ⟨rfl, rfl⟩ | ⟨rfl, rfl⟩ | ⟨rfl, rfl⟩
  · rcases operator_eq_some.mp hsome with ⟨-, heq⟩ | ⟨-, heq⟩ | ⟨-, heq⟩ | ⟨-, heq⟩
    · cases heq
    · cases heq
    · cases heq
    · cases heq
      exact hends rfl rfl
  · rcases operator_eq_some.mp hsome with ⟨-, heq⟩ | ⟨-, heq⟩ | ⟨-, heq⟩ | ⟨-, heq⟩ <;> cases heq
  · rcases operator_eq_some.mp hsome with ⟨-, heq⟩ | ⟨-, heq⟩ | ⟨-, heq⟩ | ⟨-, heq⟩ <;> cases heq

theorem symbol_not_space {c : Char} {token : Token} (h : symbol c = some token) :
    isSpace c = false := by
  rcases symbol_eq_some.mp h with ⟨-, rfl⟩ | ⟨-, rfl⟩ | ⟨-, rfl⟩ <;> decide

theorem operator_not_space {c : Char} {text rest : List Char} {token : Token}
    (h : operator (c :: text) = some (token, rest)) : isSpace c = false := by
  rcases operator_eq_some.mp h with ⟨-, heq⟩ | ⟨-, heq⟩ | ⟨-, heq⟩ | ⟨-, heq⟩ <;>
    cases heq <;> decide

/-- The tokens that are found are those of the text. -/
theorem tokenizeFrom_sound : ∀ {fuel cursor : Nat} {text : List Char} {tokens : List Token},
    tokenizeFrom fuel cursor text = .ok tokens → Lexes text tokens
  | 0, _, _, _, h => nomatch h
  | _ + 1, _, [], _, h => by
    cases h
    exact .nil
  | fuel + 1, cursor, c :: rest, tokens, h => by
    rw [tokenizeFrom] at h
    split at h
    · rename_i hspace
      exact .space hspace (tokenizeFrom_sound h)
    · split at h
      · rename_i token after hoperator
        obtain ⟨tokens', htokens, rfl⟩ := map_ok.mp h
        have hrest := tokenizeFrom_sound htokens
        rcases operator_eq_some.mp hoperator with ⟨rfl, heq⟩ | ⟨rfl, heq⟩ | ⟨rfl, heq⟩ | ⟨rfl, heq⟩
        · exact heq ▸ .token (.and after) hrest
        · exact heq ▸ .token (.or after) hrest
        · exact heq ▸ .token (.eq after) hrest
        · exact heq ▸ .token (.ne after) hrest
      · rename_i hoperator
        split at h
        · rename_i token hsymbol
          obtain ⟨tokens', htokens, rfl⟩ := map_ok.mp h
          have hrest := tokenizeFrom_sound htokens
          rcases symbol_eq_some.mp hsymbol with ⟨rfl, rfl⟩ | ⟨rfl, rfl⟩ | ⟨rfl, rfl⟩
          · refine .token (.not ?_) hrest
            intro hhead
            obtain ⟨rest', rfl⟩ : ∃ rest', rest = '=' :: rest' := by
              cases rest with
              | nil => cases hhead
              | cons d rest' => exact ⟨rest', by rw [Option.some.inj hhead]⟩
            cases hoperator
          · exact .token (.opening rest) hrest
          · exact .token (.closing rest) hrest
        · split at h
          · rename_i hstart
            obtain ⟨tokens', htokens, rfl⟩ := map_ok.mp h
            have hrest := tokenizeFrom_sound htokens
            have hsplit : c :: rest = (c :: rest.takeWhile isIdentifierPart) ++
                rest.dropWhile isIdentifierPart := by
              rw [List.cons_append, List.takeWhile_append_dropWhile]
            rw [hsplit]
            refine .token (.word ⟨c, _, rfl, hstart, ?_⟩ ?_) hrest
            · exact fun d hd => List.mem_takeWhile_imp hd
            · intro d hd
              have := List.head?_dropWhile_not isIdentifierPart rest
              rw [hd] at this
              simpa using this
          · cases h

/-- Enough fuel finds the tokens of a text that has some. -/
theorem tokenizeFrom_complete {text : List Char} {tokens : List Token} (h : Lexes text tokens) :
    ∀ {fuel cursor : Nat}, text.length < fuel → tokenizeFrom fuel cursor text = .ok tokens := by
  induction h with
  | nil =>
    intro fuel cursor hfuel
    obtain ⟨fuel, rfl⟩ := Nat.exists_eq_succ_of_ne_zero (Nat.ne_of_gt hfuel)
    rfl
  | @space c rest tokens hspace _ ih =>
    intro fuel cursor hfuel
    obtain ⟨fuel, rfl⟩ := Nat.exists_eq_succ_of_ne_zero (Nat.ne_of_gt (Nat.zero_lt_of_lt hfuel))
    rw [tokenizeFrom, if_pos hspace]
    exact ih (by simpa using hfuel)
  | @token token word rest tokens hspells _ ih =>
    intro fuel cursor hfuel
    obtain ⟨fuel, rfl⟩ := Nat.exists_eq_succ_of_ne_zero (Nat.ne_of_gt (Nat.zero_lt_of_lt hfuel))
    rw [List.length_append] at hfuel
    have hoperator : ∀ {c d : Char}, word = [c, d] →
        operator (c :: d :: rest) = some (token, rest) →
        tokenizeFrom (fuel + 1) cursor (word ++ rest) = .ok (token :: tokens) := by
      rintro c d rfl hoperator
      rw [List.cons_append, List.cons_append, List.nil_append, tokenizeFrom,
        operator_not_space hoperator, hoperator]
      simp only [Bool.false_eq_true, if_false]
      rw [ih (by simp at hfuel; omega)]
      rfl
    have hsymbol : ∀ {c : Char}, word = [c] → symbol c = some token →
        (token = .not → rest.head? ≠ some '=') →
        tokenizeFrom (fuel + 1) cursor (word ++ rest) = .ok (token :: tokens) := by
      rintro c rfl hsymbol hends
      rw [List.singleton_append, tokenizeFrom, symbol_not_space hsymbol,
        operator_symbol hsymbol hends, hsymbol]
      simp only [Bool.false_eq_true, if_false]
      rw [ih (by simp at hfuel; omega)]
      rfl
    cases hspells with
    | and | or | eq | ne => exact hoperator rfl rfl
    | not hends => exact hsymbol rfl rfl fun _ => hends
    | opening | closing => exact hsymbol rfl rfl nofun
    | word hword hends =>
      obtain ⟨c, letters, rfl, hstart, hletters⟩ := hword
      obtain ⟨hspace, hnone, hnoSymbol⟩ := isIdentifierStart_apart hstart (letters ++ rest)
      have htake : (letters ++ rest).takeWhile isIdentifierPart = letters := by
        rw [List.takeWhile_append_of_pos hletters]
        cases rest with
        | nil => simp
        | cons d rest => rw [List.takeWhile_cons_of_neg (by simp [hends d rfl]), List.append_nil]
      have hdrop : (letters ++ rest).dropWhile isIdentifierPart = rest := by
        rw [List.dropWhile_append_of_pos hletters]
        cases rest with
        | nil => rfl
        | cons d rest => rw [List.dropWhile_cons_of_neg (by simp [hends d rfl])]
      rw [List.cons_append, tokenizeFrom, hspace, hnone, hnoSymbol]
      simp only [Bool.false_eq_true, if_false, hstart, if_true, htake, hdrop]
      rw [ih (by simp at hfuel; omega)]
      rfl

theorem tokenize_ok {text : List Char} {tokens : List Token} :
    tokenize text = .ok tokens ↔ Lexes text tokens :=
  ⟨tokenizeFrom_sound, fun h => tokenizeFrom_complete h (Nat.lt_succ_self _)⟩

/-! ## Expressions -/

/-- `equal true` is `==`, `equal false` is `!=`. -/
inductive Expr
  | literal (value : Bool)
  | identifier (name : List Char)
  | not (operand : Expr)
  | equal (same : Bool) (left right : Expr)
  | and (left right : Expr)
  | or (left right : Expr)

/-- The value under an assignment to the identifiers. -/
def Expr.truth (assignment : List Char → Bool) : Expr → Bool
  | .literal value => value
  | .identifier name => assignment name
  | .not operand => !operand.truth assignment
  | .equal same left right =>
    (left.truth assignment == right.truth assignment) == same
  | .and left right => left.truth assignment && right.truth assignment
  | .or left right => left.truth assignment || right.truth assignment

/-- The value without an assignment. -/
def Expr.value : Expr → Value
  | .literal value => some value
  | .identifier _ => none
  | .not operand => triNot operand.value
  | .equal same left right => triEqual same left.value right.value
  | .and left right => triAnd left.value right.value
  | .or left right => triOr left.value right.value

/-- The levels of precedence, the tightest first. -/
inductive Level
  | primary
  | unary
  | equality
  | and
  | or

inductive Derives : Level → List Token → Expr → Prop
  | literal (value : Bool) : Derives .primary [.literal value] (.literal value)
  | identifier (name : List Char) : Derives .primary [.identifier name] (.identifier name)
  | parenthesis {tokens : List Token} {e : Expr} (inner : Derives .or tokens e) :
      Derives .primary (.opening :: (tokens ++ [.closing])) e
  | unary {tokens : List Token} {e : Expr} (inner : Derives .primary tokens e) :
      Derives .unary tokens e
  | not {tokens : List Token} {e : Expr} (operand : Derives .unary tokens e) :
      Derives .unary (.not :: tokens) (.not e)
  | equality {tokens : List Token} {e : Expr} (inner : Derives .unary tokens e) :
      Derives .equality tokens e
  | equal {tokens tokens' : List Token} {e f : Expr} (left : Derives .equality tokens e)
      (right : Derives .unary tokens' f) :
      Derives .equality (tokens ++ .eq :: tokens') (.equal true e f)
  | unequal {tokens tokens' : List Token} {e f : Expr} (left : Derives .equality tokens e)
      (right : Derives .unary tokens' f) :
      Derives .equality (tokens ++ .ne :: tokens') (.equal false e f)
  | conjunction {tokens : List Token} {e : Expr} (inner : Derives .equality tokens e) :
      Derives .and tokens e
  | and {tokens tokens' : List Token} {e f : Expr} (left : Derives .and tokens e)
      (right : Derives .equality tokens' f) :
      Derives .and (tokens ++ .and :: tokens') (.and e f)
  | disjunction {tokens : List Token} {e : Expr} (inner : Derives .and tokens e) :
      Derives .or tokens e
  | or {tokens tokens' : List Token} {e f : Expr} (left : Derives .or tokens e)
      (right : Derives .and tokens' f) :
      Derives .or (tokens ++ .or :: tokens') (.or e f)

/-- The text is that of an expression. -/
def IsExpression (text : List Char) (e : Expr) : Prop :=
  ∃ tokens, Lexes text tokens ∧ Derives .or tokens e

/-! ## What a value says -/

theorem triAnd_eq_some {left right : Value} {b : Bool} (h : triAnd left right = some b)
    {l r : Bool} (hl : ∀ b, left = some b → l = b) (hr : ∀ b, right = some b → r = b) :
    (l && r) = b := by
  rcases left with _ | _ | _ <;> rcases right with _ | _ | _ <;>
    simp_all [triAnd]

theorem triOr_eq_some {left right : Value} {b : Bool} (h : triOr left right = some b)
    {l r : Bool} (hl : ∀ b, left = some b → l = b) (hr : ∀ b, right = some b → r = b) :
    (l || r) = b := by
  rcases left with _ | _ | _ <;> rcases right with _ | _ | _ <;>
    simp_all [triOr]

theorem triEqual_eq_some {same : Bool} {left right : Value} {b : Bool}
    (h : triEqual same left right = some b) {l r : Bool} (hl : ∀ b, left = some b → l = b)
    (hr : ∀ b, right = some b → r = b) : ((l == r) == same) = b := by
  cases left with
  | none => cases h
  | some left =>
    cases right with
    | none => cases h
    | some right =>
      rw [hl left rfl, hr right rfl, ← Option.some.inj h]
      cases same <;> cases left <;> cases right <;> rfl

/-- A value that is known without an assignment is the value under every one. -/
theorem Expr.value_sound (assignment : List Char → Bool) : ∀ (e : Expr) {b : Bool},
    e.value = some b → e.truth assignment = b
  | .literal value, b, h => Option.some.inj h
  | .identifier _, _, h => nomatch h
  | .not operand, b, h => by
    obtain ⟨c, hc, rfl⟩ := Option.map_eq_some_iff.mp h
    rw [Expr.truth, operand.value_sound assignment hc]
  | .equal same left right, b, h =>
    triEqual_eq_some h (fun _ => left.value_sound assignment) fun _ => right.value_sound assignment
  | .and left right, b, h =>
    triAnd_eq_some h (fun _ => left.value_sound assignment) fun _ => right.value_sound assignment
  | .or left right, b, h =>
    triOr_eq_some h (fun _ => left.value_sound assignment) fun _ => right.value_sound assignment

/-! ## What the parser accepts is derived -/

/-- A result that took a derivation off the front of the tokens. -/
def Reads (level : Level) (tokens : List Token) (read : Value × List Token) : Prop :=
  ∃ used e, tokens = used ++ read.2 ∧ Derives level used e ∧ read.1 = e.value

/-- A result of a loop that went on with a derivation of `used`. -/
def Extends (level : Level) (used rest : List Token) (read : Value × List Token) : Prop :=
  ∃ more e, rest = more ++ read.2 ∧ Derives level (used ++ more) e ∧ read.1 = e.value

theorem Extends.refl {level : Level} {used rest : List Token} {e : Expr}
    (h : Derives level used e) : Extends level used rest (e.value, rest) :=
  ⟨[], e, rfl, by rwa [List.append_nil], rfl⟩

/-- The operator and the operand that a round of a loop takes. -/
theorem Extends.round {level : Level} {used more rest : List Token} {token : Token}
    {read : Value × List Token} (h : Extends level (used ++ token :: more) rest read) :
    Extends level used (token :: (more ++ rest)) read := by
  obtain ⟨more', e, hrest, hderives, hvalue⟩ := h
  refine ⟨token :: (more ++ more'), e, ?_, ?_, hvalue⟩
  · rw [hrest]
    simp
  · simpa using hderives

structure Sound (fuel : Nat) : Prop where
  primary : ∀ {tokens read}, parsePrimary fuel tokens = .ok read → Reads .primary tokens read
  unary : ∀ {tokens read}, parseUnary fuel tokens = .ok read → Reads .unary tokens read
  equality : ∀ {tokens read}, parseEquality fuel tokens = .ok read → Reads .equality tokens read
  equalities : ∀ {used e rest read}, Derives .equality used e →
    equalityLoop fuel e.value rest = .ok read → Extends .equality used rest read
  and : ∀ {tokens read}, parseAnd fuel tokens = .ok read → Reads .and tokens read
  ands : ∀ {used e rest read}, Derives .and used e → andLoop fuel e.value rest = .ok read →
    Extends .and used rest read
  or : ∀ {tokens read}, parseOr fuel tokens = .ok read → Reads .or tokens read
  ors : ∀ {used e rest read}, Derives .or used e → orLoop fuel e.value rest = .ok read →
    Extends .or used rest read

/-- A first operand and the loop after it. -/
theorem Reads.loop {inner level : Level} {tokens rest : List Token} {value : Value}
    {read : Value × List Token} (hfirst : Reads inner tokens (value, rest))
    (hlift : ∀ {used e}, Derives inner used e → Derives level used e)
    (hloop : ∀ {used e}, Derives level used e → value = e.value → Extends level used rest read) :
    Reads level tokens read := by
  obtain ⟨used, e, htokens, hderives, hvalue⟩ := hfirst
  obtain ⟨more, e', hrest, hderives', hvalue'⟩ := hloop (hlift hderives) hvalue
  refine ⟨used ++ more, e', ?_, hderives', hvalue'⟩
  rw [htokens, List.append_assoc]
  exact congrArg _ hrest

theorem Sound.primary_succ {fuel : Nat} (h : Sound fuel) {tokens : List Token}
    {read : Value × List Token} (hread : parsePrimary (fuel + 1) tokens = .ok read) :
    Reads .primary tokens read := by
  unfold parsePrimary at hread
  simp only at hread
  split at hread
  · cases hread
    exact ⟨[_], .literal _, rfl, .literal _, rfl⟩
  · obtain ⟨⟨value, rest⟩, hinner, hread⟩ := bind_ok.mp hread
    simp only at hread
    split at hread
    · cases hread
      obtain ⟨used, e, hrest, hderives, hvalue⟩ := h.or hinner
      refine ⟨.opening :: (used ++ [.closing]), e, ?_, .parenthesis hderives, hvalue⟩
      rw [hrest]
      simp
    · cases hread
  · cases hread
    exact ⟨[_], .identifier _, rfl, .identifier _, rfl⟩
  · cases hread

theorem Sound.unary_succ {fuel : Nat} (h : Sound fuel) {tokens : List Token}
    {read : Value × List Token} (hread : parseUnary (fuel + 1) tokens = .ok read) :
    Reads .unary tokens read := by
  unfold parseUnary at hread
  simp only at hread
  split at hread
  · obtain ⟨⟨value, rest⟩, hinner, hread⟩ := bind_ok.mp hread
    cases hread
    obtain ⟨used, e, hrest, hderives, hvalue⟩ := h.unary hinner
    refine ⟨.not :: used, .not e, ?_, .not hderives, ?_⟩
    · rw [hrest]
      rfl
    · exact congrArg triNot hvalue
  · obtain ⟨used, e, hrest, hderives, hvalue⟩ := h.primary hread
    exact ⟨used, e, hrest, .unary hderives, hvalue⟩

theorem Sound.equality_succ {fuel : Nat} (h : Sound fuel) {tokens : List Token}
    {read : Value × List Token} (hread : parseEquality (fuel + 1) tokens = .ok read) :
    Reads .equality tokens read := by
  rw [parseEquality] at hread
  obtain ⟨⟨value, rest⟩, hfirst, hloop⟩ := bind_ok.mp hread
  refine (h.unary hfirst).loop .equality fun hderives hvalue => h.equalities hderives ?_
  rw [← hvalue]
  exact hloop

theorem Sound.equalities_succ {fuel : Nat} (h : Sound fuel) {used rest : List Token} {e : Expr}
    {read : Value × List Token} (hderives : Derives .equality used e)
    (hread : equalityLoop (fuel + 1) e.value rest = .ok read) : Extends .equality used rest read := by
  unfold equalityLoop at hread
  simp only at hread
  split at hread
  · obtain ⟨⟨right, rest'⟩, hright, hread⟩ := bind_ok.mp hread
    obtain ⟨more, f, hmore, hderives', hvalue⟩ := h.unary hright
    rw [hmore]
    refine Extends.round (h.equalities (.equal hderives hderives') ?_)
    rw [Expr.value, ← hvalue]
    exact hread
  · obtain ⟨⟨right, rest'⟩, hright, hread⟩ := bind_ok.mp hread
    obtain ⟨more, f, hmore, hderives', hvalue⟩ := h.unary hright
    rw [hmore]
    refine Extends.round (h.equalities (.unequal hderives hderives') ?_)
    rw [Expr.value, ← hvalue]
    exact hread
  · cases hread
    exact .refl hderives

theorem Sound.and_succ {fuel : Nat} (h : Sound fuel) {tokens : List Token}
    {read : Value × List Token} (hread : parseAnd (fuel + 1) tokens = .ok read) :
    Reads .and tokens read := by
  rw [parseAnd] at hread
  obtain ⟨⟨value, rest⟩, hfirst, hloop⟩ := bind_ok.mp hread
  refine (h.equality hfirst).loop .conjunction fun hderives hvalue => h.ands hderives ?_
  rw [← hvalue]
  exact hloop

theorem Sound.ands_succ {fuel : Nat} (h : Sound fuel) {used rest : List Token} {e : Expr}
    {read : Value × List Token} (hderives : Derives .and used e)
    (hread : andLoop (fuel + 1) e.value rest = .ok read) : Extends .and used rest read := by
  unfold andLoop at hread
  simp only at hread
  split at hread
  · obtain ⟨⟨right, rest'⟩, hright, hread⟩ := bind_ok.mp hread
    obtain ⟨more, f, hmore, hderives', hvalue⟩ := h.equality hright
    rw [hmore]
    refine Extends.round (h.ands (.and hderives hderives') ?_)
    rw [Expr.value, ← hvalue]
    exact hread
  · cases hread
    exact .refl hderives

theorem Sound.or_succ {fuel : Nat} (h : Sound fuel) {tokens : List Token}
    {read : Value × List Token} (hread : parseOr (fuel + 1) tokens = .ok read) :
    Reads .or tokens read := by
  rw [parseOr] at hread
  obtain ⟨⟨value, rest⟩, hfirst, hloop⟩ := bind_ok.mp hread
  refine (h.and hfirst).loop .disjunction fun hderives hvalue => h.ors hderives ?_
  rw [← hvalue]
  exact hloop

theorem Sound.ors_succ {fuel : Nat} (h : Sound fuel) {used rest : List Token} {e : Expr}
    {read : Value × List Token} (hderives : Derives .or used e)
    (hread : orLoop (fuel + 1) e.value rest = .ok read) : Extends .or used rest read := by
  unfold orLoop at hread
  simp only at hread
  split at hread
  · obtain ⟨⟨right, rest'⟩, hright, hread⟩ := bind_ok.mp hread
    obtain ⟨more, f, hmore, hderives', hvalue⟩ := h.and hright
    rw [hmore]
    refine Extends.round (h.ors (.or hderives hderives') ?_)
    rw [Expr.value, ← hvalue]
    exact hread
  · cases hread
    exact .refl hderives

theorem sound (fuel : Nat) : Sound fuel := by
  induction fuel with
  | zero => exact ⟨nofun, nofun, nofun, fun _ => nofun, nofun, fun _ => nofun, nofun, fun _ => nofun⟩
  | succ fuel ih =>
    exact ⟨ih.primary_succ, ih.unary_succ, ih.equality_succ, ih.equalities_succ, ih.and_succ,
      ih.ands_succ, ih.or_succ, ih.ors_succ⟩

/-! ## What is derived is accepted -/

theorem Derives.length_pos {level : Level} {tokens : List Token} {e : Expr}
    (h : Derives level tokens e) : 0 < tokens.length := by
  induction h with
  | unary _ ih | equality _ ih | conjunction _ ih | disjunction _ ih => exact ih
  | literal | identifier | parenthesis | not | equal | unequal | and | or => simp

/-- No operator of the level or a tighter one goes on here. -/
def Ends : Level → List Token → Prop
  | .primary, _ | .unary, _ => True
  | .equality, rest => rest.head? ≠ some .eq ∧ rest.head? ≠ some .ne
  | .and, rest => (rest.head? ≠ some .eq ∧ rest.head? ≠ some .ne) ∧ rest.head? ≠ some .and
  | .or, rest => ((rest.head? ≠ some .eq ∧ rest.head? ≠ some .ne) ∧ rest.head? ≠ some .and) ∧
      rest.head? ≠ some .or

theorem equalityLoop_ends {fuel : Nat} {value : Value} {rest : List Token}
    (h : Ends .equality rest) : equalityLoop (fuel + 1) value rest = .ok (value, rest) := by
  unfold equalityLoop
  simp only
  split
  · exact absurd rfl h.1
  · exact absurd rfl h.2
  · rfl

theorem andLoop_ends {fuel : Nat} {value : Value} {rest : List Token}
    (h : Ends .and rest) : andLoop (fuel + 1) value rest = .ok (value, rest) := by
  unfold andLoop
  simp only
  split
  · exact absurd rfl h.2
  · rfl

theorem orLoop_ends {fuel : Nat} {value : Value} {rest : List Token}
    (h : Ends .or rest) : orLoop (fuel + 1) value rest = .ok (value, rest) := by
  unfold orLoop
  simp only
  split
  · exact absurd rfl h.2
  · rfl

/-- With enough fuel the parser of a level comes to the loop behind the tokens. -/
def Accepts (level : Level) (tokens : List Token) (e : Expr) : Prop :=
  ∀ (fuel : Nat) (rest : List Token),
    match level with
    | .primary => 6 * tokens.length + 1 ≤ fuel → parsePrimary fuel (tokens ++ rest) = .ok (e.value, rest)
    | .unary => 6 * tokens.length + 2 ≤ fuel → parseUnary fuel (tokens ++ rest) = .ok (e.value, rest)
    | .equality => 6 * tokens.length + 3 ≤ fuel → ∃ left, fuel ≤ left + tokens.length ∧
        parseEquality fuel (tokens ++ rest) = equalityLoop left e.value rest
    | .and => 6 * tokens.length + 4 ≤ fuel → Ends .equality rest → ∃ left,
        fuel ≤ left + tokens.length ∧ parseAnd fuel (tokens ++ rest) = andLoop left e.value rest
    | .or => 6 * tokens.length + 5 ≤ fuel → Ends .and rest → ∃ left,
        fuel ≤ left + tokens.length ∧ parseOr fuel (tokens ++ rest) = orLoop left e.value rest

/-- A whole operand of the level of equality. -/
theorem Accepts.equality_ends {tokens : List Token} {e : Expr} (h : Accepts .equality tokens e)
    (fuel : Nat) {rest : List Token} (hfuel : 6 * tokens.length + 3 ≤ fuel)
    (hends : Ends .equality rest) : parseEquality fuel (tokens ++ rest) = .ok (e.value, rest) := by
  obtain ⟨left, hleft, hparse⟩ := h fuel rest hfuel
  obtain ⟨left, rfl⟩ := Nat.exists_eq_succ_of_ne_zero (show left ≠ 0 by omega)
  rw [hparse, equalityLoop_ends hends]

theorem Accepts.and_ends {tokens : List Token} {e : Expr} (h : Accepts .and tokens e)
    (fuel : Nat) {rest : List Token} (hfuel : 6 * tokens.length + 4 ≤ fuel)
    (hends : Ends .and rest) : parseAnd fuel (tokens ++ rest) = .ok (e.value, rest) := by
  obtain ⟨left, hleft, hparse⟩ := h fuel rest hfuel hends.1
  obtain ⟨left, rfl⟩ := Nat.exists_eq_succ_of_ne_zero (show left ≠ 0 by omega)
  rw [hparse, andLoop_ends hends]

theorem Accepts.or_ends {tokens : List Token} {e : Expr} (h : Accepts .or tokens e)
    (fuel : Nat) {rest : List Token} (hfuel : 6 * tokens.length + 5 ≤ fuel)
    (hends : Ends .or rest) : parseOr fuel (tokens ++ rest) = .ok (e.value, rest) := by
  obtain ⟨left, hleft, hparse⟩ := h fuel rest hfuel hends.1
  obtain ⟨left, rfl⟩ := Nat.exists_eq_succ_of_ne_zero (show left ≠ 0 by omega)
  rw [hparse, orLoop_ends hends]

/-- A round of the loop of `parseEquality`, with the operator that says whether `same`. -/
theorem Accepts.equality_round (same : Bool) {tokens tokens' : List Token} {e f : Expr}
    (h : Accepts .equality tokens e) (h' : Accepts .unary tokens' f) :
    Accepts .equality (tokens ++ (if same then .eq else .ne) :: tokens') (.equal same e f) := by
  intro fuel rest hfuel
  simp only [List.length_append, List.length_cons] at hfuel ⊢
  obtain ⟨left, hleft, hparse⟩ := h fuel ((if same then .eq else .ne) :: (tokens' ++ rest)) (by omega)
  obtain ⟨left, rfl⟩ := Nat.exists_eq_succ_of_ne_zero (show left ≠ 0 by omega)
  have hright := h' left rest (by omega)
  refine ⟨left, by omega, ?_⟩
  rw [List.append_assoc, List.cons_append, hparse]
  cases same with
  | true =>
    simp only [if_true, equalityLoop, hright]
    rfl
  | false =>
    simp only [Bool.false_eq_true, if_false, equalityLoop, hright]
    rfl

theorem Derives.accepts {level : Level} {tokens : List Token} {e : Expr}
    (h : Derives level tokens e) : Accepts level tokens e := by
  induction h with
  | literal value | identifier name =>
    intro fuel rest hfuel
    obtain ⟨fuel, rfl⟩ := Nat.exists_eq_succ_of_ne_zero (show fuel ≠ 0 by omega)
    simp only [List.cons_append, parsePrimary]
    rfl
  | @parenthesis tokens e _ ih =>
    intro fuel rest hfuel
    simp only [List.length_cons, List.length_append, List.length_nil] at hfuel
    obtain ⟨fuel, rfl⟩ := Nat.exists_eq_succ_of_ne_zero (show fuel ≠ 0 by omega)
    have hinner : parseOr fuel (tokens ++ (.closing :: rest)) = .ok (e.value, .closing :: rest) :=
      ih.or_ends fuel (by omega) ⟨⟨⟨by simp, by simp⟩, by simp⟩, by simp⟩
    simp only [List.cons_append, List.append_assoc, List.nil_append, parsePrimary, hinner]
    rfl
  | @unary tokens e hinner ih =>
    intro fuel rest hfuel
    obtain ⟨fuel, rfl⟩ := Nat.exists_eq_succ_of_ne_zero (show fuel ≠ 0 by omega)
    have hprimary := ih fuel rest (by omega)
    cases hinner with
    | literal | identifier | parenthesis =>
      simp only [List.cons_append, parseUnary] at hprimary ⊢
      exact hprimary
  | @not tokens e _ ih =>
    intro fuel rest hfuel
    rw [List.length_cons] at hfuel
    obtain ⟨fuel, rfl⟩ := Nat.exists_eq_succ_of_ne_zero (show fuel ≠ 0 by omega)
    have hoperand := ih fuel rest (by omega)
    simp only [List.cons_append, parseUnary, hoperand]
    rfl
  | @equality tokens e hinner ih =>
    intro fuel rest hfuel
    have hpos := hinner.length_pos
    obtain ⟨fuel, rfl⟩ := Nat.exists_eq_succ_of_ne_zero (show fuel ≠ 0 by omega)
    have hunary := ih fuel rest (by omega)
    refine ⟨fuel, by omega, ?_⟩
    rw [parseEquality, hunary]
    rfl
  | equal _ _ ih ih' => exact Accepts.equality_round true ih ih'
  | unequal _ _ ih ih' => exact Accepts.equality_round false ih ih'
  | @conjunction tokens e hinner ih =>
    intro fuel rest hfuel hends
    have hpos := hinner.length_pos
    obtain ⟨fuel, rfl⟩ := Nat.exists_eq_succ_of_ne_zero (show fuel ≠ 0 by omega)
    have hfirst := ih.equality_ends fuel (by omega) hends
    refine ⟨fuel, by omega, ?_⟩
    rw [parseAnd, hfirst]
    rfl
  | @and tokens tokens' e f _ _ ih ih' =>
    intro fuel rest hfuel hends
    simp only [List.length_append, List.length_cons] at hfuel ⊢
    obtain ⟨left, hleft, hparse⟩ := ih fuel (.and :: (tokens' ++ rest)) (by omega)
      ⟨by simp, by simp⟩
    obtain ⟨left, rfl⟩ := Nat.exists_eq_succ_of_ne_zero (show left ≠ 0 by omega)
    have hright := ih'.equality_ends left (by omega) hends
    refine ⟨left, by omega, ?_⟩
    rw [List.append_assoc, List.cons_append, hparse]
    simp only [andLoop, hright]
    rfl
  | @disjunction tokens e hinner ih =>
    intro fuel rest hfuel hends
    have hpos := hinner.length_pos
    obtain ⟨fuel, rfl⟩ := Nat.exists_eq_succ_of_ne_zero (show fuel ≠ 0 by omega)
    have hfirst := ih.and_ends fuel (by omega) hends
    refine ⟨fuel, by omega, ?_⟩
    rw [parseOr, hfirst]
    rfl
  | @or tokens tokens' e f _ _ ih ih' =>
    intro fuel rest hfuel hends
    simp only [List.length_append, List.length_cons] at hfuel ⊢
    obtain ⟨left, hleft, hparse⟩ := ih fuel (.or :: (tokens' ++ rest)) (by omega)
      ⟨⟨by simp, by simp⟩, by simp⟩
    obtain ⟨left, rfl⟩ := Nat.exists_eq_succ_of_ne_zero (show left ≠ 0 by omega)
    have hright := ih'.and_ends left (by omega) hends
    refine ⟨left, by omega, ?_⟩
    rw [List.append_assoc, List.cons_append, hparse]
    simp only [orLoop, hright]
    rfl

theorem evaluateTokens_ok {tokens : List Token} {value : Value} :
    evaluateTokens tokens = .ok value ↔ ∃ e, Derives .or tokens e ∧ value = e.value := by
  constructor
  · intro h
    obtain ⟨⟨found, rest⟩, hparse, h⟩ := bind_ok.mp h
    obtain ⟨used, e, hused, hderives, hvalue⟩ := (sound _).or hparse
    simp only at h hused hvalue
    split at h
    · cases h
      rw [List.append_nil] at hused
      exact ⟨e, hused ▸ hderives, hvalue⟩
    · cases h
  · rintro ⟨e, hderives, rfl⟩
    have hends : Ends .or [] := ⟨⟨⟨by simp, by simp⟩, by simp⟩, by simp⟩
    have hparse := hderives.accepts.or_ends (6 * tokens.length + 6) (by omega) hends
    rw [List.append_nil] at hparse
    rw [evaluateTokens, hparse]
    rfl

theorem evaluate_ok {text : List Char} {value : Value} :
    evaluateStaticBooleanExpression text = .ok value ↔ ∃ e, IsExpression text e ∧ value = e.value := by
  rw [evaluateStaticBooleanExpression, bind_ok]
  constructor
  · rintro ⟨tokens, htokens, hvalue⟩
    obtain ⟨e, hderives, hvalue⟩ := evaluateTokens_ok.mp hvalue
    exact ⟨e, ⟨tokens, tokenize_ok.mp htokens, hderives⟩, hvalue⟩
  · rintro ⟨e, ⟨tokens, htokens, hderives⟩, hvalue⟩
    exact ⟨tokens, tokenize_ok.mpr htokens, evaluateTokens_ok.mpr ⟨e, hderives, hvalue⟩⟩

/-! ## The fuel is never used up -/

/-- A result that is not for want of fuel, with fewer tokens left than `length`. -/
def Settles (length : Nat) : Parsed → Prop
  | .ok read => read.2.length < length
  | .error failure => failure ≠ .outOfFuel

theorem Settles.bind {length : Nat} {first : Parsed} {next : Value × List Token → Parsed}
    (h : Settles length first) (hnext : ∀ read, read.2.length < length → Settles length (next read)) :
    Settles length (first >>= next) := by
  cases first with
  | error failure => exact h
  | ok read => exact hnext read h

theorem Settles.mono {length length' : Nat} {result : Parsed} (h : Settles length result)
    (hle : length ≤ length') : Settles length' result := by
  cases result with
  | error failure => exact h
  | ok read => exact Nat.lt_of_lt_of_le h hle

structure Fuelled (fuel : Nat) : Prop where
  primary : ∀ tokens, 6 * tokens.length + 1 ≤ fuel → Settles tokens.length (parsePrimary fuel tokens)
  unary : ∀ tokens, 6 * tokens.length + 2 ≤ fuel → Settles tokens.length (parseUnary fuel tokens)
  equality : ∀ tokens, 6 * tokens.length + 3 ≤ fuel →
    Settles tokens.length (parseEquality fuel tokens)
  equalities : ∀ value tokens, 6 * tokens.length + 1 ≤ fuel →
    Settles (tokens.length + 1) (equalityLoop fuel value tokens)
  and : ∀ tokens, 6 * tokens.length + 4 ≤ fuel → Settles tokens.length (parseAnd fuel tokens)
  ands : ∀ value tokens, 6 * tokens.length + 1 ≤ fuel →
    Settles (tokens.length + 1) (andLoop fuel value tokens)
  or : ∀ tokens, 6 * tokens.length + 5 ≤ fuel → Settles tokens.length (parseOr fuel tokens)
  ors : ∀ value tokens, 6 * tokens.length + 1 ≤ fuel →
    Settles (tokens.length + 1) (orLoop fuel value tokens)

/-- An operand and the loop behind it. -/
theorem Settles.loop {tokens : List Token} {first : Parsed} {loop : Value → List Token → Parsed}
    (hfirst : Settles tokens.length first)
    (hloop : ∀ value rest, rest.length < tokens.length → Settles (rest.length + 1) (loop value rest)) :
    Settles tokens.length (first >>= fun read => loop read.1 read.2) :=
  hfirst.bind fun read hread => (hloop read.1 read.2 hread).mono (by omega)

theorem fuelled (fuel : Nat) : Fuelled fuel := by
  induction fuel with
  | zero => constructor <;> intros <;> omega
  | succ fuel ih =>
    constructor
    · intro tokens hfuel
      unfold parsePrimary
      simp only
      split
      · simp [Settles]
      · rename_i rest
        rw [List.length_cons] at hfuel ⊢
        refine ((ih.or rest (by omega)).mono (Nat.le_succ _)).bind fun read hread => ?_
        split
        · rename_i rest' hrest
          rw [hrest, List.length_cons] at hread
          exact Nat.lt_of_succ_lt hread
        · simp [Settles]
      · simp [Settles]
      · simp [Settles, unexpected]
    · intro tokens hfuel
      unfold parseUnary
      simp only
      split
      · rename_i rest
        rw [List.length_cons] at hfuel ⊢
        exact ((ih.unary rest (by omega)).mono (Nat.le_succ _)).bind fun read hread => hread
      · exact ih.primary tokens (by omega)
    · intro tokens hfuel
      rw [parseEquality]
      exact (ih.unary tokens (by omega)).loop fun value rest hrest =>
        ih.equalities value rest (by omega)
    · intro value tokens hfuel
      unfold equalityLoop
      simp only
      split
      · rename_i rest
        rw [List.length_cons] at hfuel ⊢
        refine Settles.mono ?_ (Nat.le_succ _)
        exact ((ih.unary rest (by omega)).mono (Nat.le_succ _)).bind fun read hread =>
          (ih.equalities _ read.2 (by omega)).mono (by omega)
      · rename_i rest
        rw [List.length_cons] at hfuel ⊢
        refine Settles.mono ?_ (Nat.le_succ _)
        exact ((ih.unary rest (by omega)).mono (Nat.le_succ _)).bind fun read hread =>
          (ih.equalities _ read.2 (by omega)).mono (by omega)
      · exact Nat.lt_succ_self _
    · intro tokens hfuel
      rw [parseAnd]
      exact (ih.equality tokens (by omega)).loop fun value rest hrest => ih.ands value rest (by omega)
    · intro value tokens hfuel
      unfold andLoop
      simp only
      split
      · rename_i rest
        rw [List.length_cons] at hfuel ⊢
        refine Settles.mono ?_ (Nat.le_succ _)
        exact ((ih.equality rest (by omega)).mono (Nat.le_succ _)).bind fun read hread =>
          (ih.ands _ read.2 (by omega)).mono (by omega)
      · exact Nat.lt_succ_self _
    · intro tokens hfuel
      rw [parseOr]
      exact (ih.and tokens (by omega)).loop fun value rest hrest => ih.ors value rest (by omega)
    · intro value tokens hfuel
      unfold orLoop
      simp only
      split
      · rename_i rest
        rw [List.length_cons] at hfuel ⊢
        refine Settles.mono ?_ (Nat.le_succ _)
        exact ((ih.and rest (by omega)).mono (Nat.le_succ _)).bind fun read hread =>
          (ih.ors _ read.2 (by omega)).mono (by omega)
      · exact Nat.lt_succ_self _

theorem tokenizeFrom_fuelled : ∀ (fuel cursor : Nat) (text : List Char), text.length < fuel →
    tokenizeFrom fuel cursor text ≠ .error .outOfFuel
  | 0, _, _, h => absurd h (Nat.not_lt_zero _)
  | _ + 1, _, [], _ => nofun
  | fuel + 1, cursor, c :: rest, h => by
    rw [List.length_cons] at h
    have hmap : ∀ {cursor : Nat} {after : List Char} (token : Token), after.length ≤ rest.length →
        (tokenizeFrom fuel cursor after).map (token :: ·) ≠ .error .outOfFuel := by
      intro cursor after token hle hfuel
      have hshort := tokenizeFrom_fuelled fuel cursor after (by omega)
      cases hafter : tokenizeFrom fuel cursor after with
      | ok tokens =>
        rw [hafter] at hfuel
        cases hfuel
      | error failure =>
        rw [hafter] at hfuel
        cases hfuel
        exact hshort hafter
    rw [tokenizeFrom]
    split
    · exact tokenizeFrom_fuelled _ _ _ (by omega)
    · split
      · rename_i token after hoperator
        refine hmap token ?_
        rcases operator_eq_some.mp hoperator with ⟨-, heq⟩ | ⟨-, heq⟩ | ⟨-, heq⟩ | ⟨-, heq⟩ <;>
          cases heq <;> simp
      · split
        · exact hmap _ (Nat.le_refl _)
        · split
          · exact hmap _ (List.dropWhile_sublist isIdentifierPart).length_le
          · nofun

theorem evaluate_fuelled (text : List Char) :
    evaluateStaticBooleanExpression text ≠ .error .outOfFuel := by
  intro h
  rcases bind_error.mp h with h | ⟨tokens, -, h⟩
  · exact tokenizeFrom_fuelled _ _ _ (Nat.lt_succ_self _) h
  · have hsettles := (fuelled (6 * tokens.length + 6)).or tokens (by omega)
    rcases bind_error.mp h with h | ⟨⟨value, rest⟩, -, h⟩
    · rw [h] at hsettles
      exact hsettles rfl
    · simp only at h
      split at h
      · cases h
      · cases h

/-- The evaluator throws exactly at the texts of no expression, and a truth value that it
returns is the value of the expression under every assignment to its identifiers. -/
theorem evaluate_exact (text : List Char) :
    ((∃ message, evaluateStaticBooleanExpression text = .error (.error message)) ↔
      ¬ ∃ e, IsExpression text e) ∧
    ∀ b, evaluateStaticBooleanExpression text = .ok (some b) →
      ∀ e, IsExpression text e → ∀ assignment : List Char → Bool, e.truth assignment = b := by
  constructor
  · constructor
    · rintro ⟨message, hmessage⟩ ⟨e, he⟩
      rw [evaluate_ok.mpr ⟨e, he, rfl⟩] at hmessage
      cases hmessage
    · intro hnone
      cases h : evaluateStaticBooleanExpression text with
      | ok value =>
        obtain ⟨e, he, -⟩ := evaluate_ok.mp h
        exact absurd ⟨e, he⟩ hnone
      | error failure =>
        cases failure with
        | error message => exact ⟨message, rfl⟩
        | outOfFuel => exact absurd h (evaluate_fuelled text)
  · intro b hb e he assignment
    have hvalue := evaluate_ok.mpr ⟨e, he, rfl⟩
    rw [hb] at hvalue
    exact e.value_sound assignment (Except.ok.inj hvalue).symm

/-- The unknown identifier does not matter here, and equality binds tighter than `&&`. -/
theorem evaluate_exact_guarded :
    evaluateStaticBooleanExpression "!(D||true)&&A!=B".toList = .ok (some false) ∧
    ∀ e, IsExpression "!(D||true)&&A!=B".toList e →
      ∀ assignment : List Char → Bool, e.truth assignment = false := by
  have hvalue : evaluateStaticBooleanExpression "!(D||true)&&A!=B".toList = .ok (some false) := by
    decide +kernel
  exact ⟨hvalue, (evaluate_exact _).2 false hvalue⟩

end SurfaceLoom.Scripts.StaticBoolean
