import RecordAccess.Filter.Sql
import RecordAccess.Proofs.Digits

/-!
# Words of SQL conditions

`Sql.tokens` splits the text of a condition into names between double quotes, where two quotes stand
for one, numbered placeholders, keywords and signs.  A token goes on for as long as it can.
Splitting a text that was rendered gives the tokens that it was rendered from
(`Sql.Term.scan_chars`).
-/

namespace RecordAccess.Sql

/-! ### Tokens -/

/-- A word of a text. -/
inductive Token
  | name (text : String)
  | placeholder (n : ℕ)
  | equals
  | comma
  | opened
  | closed
  | falsity
  | isIn
  | and
  | or
  /-- Anything that no condition is made of. -/
  | stray
deriving DecidableEq

/-- The token that an unquoted word is. -/
def keyword : List Char → Token
  | ['F', 'A', 'L', 'S', 'E'] => .falsity
  | ['I', 'N'] => .isIn
  | ['A', 'N', 'D'] => .and
  | ['O', 'R'] => .or
  | _ => .stray

/-- Whether an unquoted word goes on with a character. -/
def isWordChar (c : Char) : Bool := c.isAlphanum || c = '_' || c = '$'

/-- A token that has been begun and may go on. -/
inductive Pending
  | nothing
  | word (cs : List Char)
  | number (ds : List Char)
  | quoted (cs : List Char)
  /-- A quote inside a name, which ends the name or is the first of two. -/
  | quote (cs : List Char)

namespace Pending

/-- The token, if the text ends here. -/
def ended : Pending → List Token
  | .nothing => []
  | .word cs => [keyword cs]
  | .number ds => if ds.isEmpty then [.stray] else [.placeholder (Decimal.value ds)]
  | .quoted _ => [.stray]
  | .quote cs => [.name (String.ofList cs)]

/-- The token with one more character, if it goes on. -/
def extend : Pending → Char → Option Pending
  | .nothing, _ => none
  | .word cs, c => if isWordChar c then some (.word (cs ++ [c])) else none
  | .number ds, c => if c.isDigit then some (.number (ds ++ [c])) else none
  | .quoted cs, c => some (if c = '\x22' then .quote cs else .quoted (cs ++ [c]))
  | .quote cs, c => if c = '\x22' then some (.quoted (cs ++ [c])) else none

/-- What a character begins that no token goes on with. -/
def first (c : Char) : List Token × Pending :=
  if c = '\x22' then ([], .quoted [])
  else if c = '$' then ([], .number [])
  else if c = '=' then ([.equals], .nothing)
  else if c = ',' then ([.comma], .nothing)
  else if c = '(' then ([.opened], .nothing)
  else if c = ')' then ([.closed], .nothing)
  else if c.isWhitespace then ([], .nothing)
  else if c.isAlpha || c = '_' then ([], .word [c])
  else ([.stray], .nothing)

end Pending

/-- The tokens of a text, the first of which has been begun. -/
def scan : Pending → List Char → List Token
  | p, [] => p.ended
  | p, c :: cs =>
    match p.extend c with
    | some p => scan p cs
    | none => p.ended ++ (Pending.first c).1 ++ scan (Pending.first c).2 cs

/-- The tokens of a text. -/
def tokens (text : String) : List Token := scan .nothing text.toList

/-! ### Texts after each other -/

theorem scan_cons_of_extend {p p' : Pending} {c : Char} (h : p.extend c = some p')
    (cs : List Char) : scan p (c :: cs) = scan p' cs := by
  rw [scan, h]

theorem scan_cons_of_ended {p : Pending} {c : Char} (h : p.extend c = none) (cs : List Char) :
    scan p (c :: cs) = p.ended ++ scan .nothing (c :: cs) := by
  rw [scan, h, List.append_assoc]
  rfl

/-- A blank ends every token but a name without its last quote. -/
theorem extend_blank {p : Pending} (h : .stray ∉ p.ended) : p.extend ' ' = none := by
  cases p with
  | quoted cs => simp [Pending.ended] at h
  | _ => rfl

theorem scan_append_blank {p : Pending} {text : List Char} (h : .stray ∉ scan p text)
    (rest : List Char) : scan p (text ++ ' ' :: rest) = scan p text ++ scan .nothing rest := by
  induction text generalizing p with
  | nil => exact scan_cons_of_ended (extend_blank h) rest
  | cons c text ih =>
    rw [List.cons_append]
    cases hextend : p.extend c with
    | some p' =>
      rw [scan_cons_of_extend hextend] at h
      rw [scan_cons_of_extend hextend, scan_cons_of_extend hextend, ih h]
    | none =>
      simp only [scan, hextend, List.mem_append, not_or] at h
      simp only [scan, hextend, ih h.2, List.append_assoc]

/-! ### Rendered names and placeholders -/

/-- Inside a name, a character stands for itself once quotes are doubled. -/
theorem scan_quoted (cs text rest : List Char) :
    scan (.quoted cs) (text.flatMap (fun c => if c = '\x22' then ['\x22', '\x22'] else [c]) ++
      rest) = scan (.quoted (cs ++ text)) rest := by
  induction text generalizing cs with
  | nil => simp
  | cons c text ih =>
    rw [List.flatMap_cons, List.append_assoc]
    by_cases hc : c = '\x22'
    · -- the first of the two quotes waits for the second
      subst hc
      have := ih (cs ++ ['\x22'])
      simpa [scan, Pending.extend] using this
    · have := ih (cs ++ [c])
      simpa [scan, Pending.extend, hc] using this

/-- A quoted name is one token, whatever characters it has. -/
theorem scan_quoteName (name : String) (rest : List Char) :
    scan .nothing (quoteName name ++ ' ' :: rest) = .name name :: scan .nothing rest := by
  have hopened : scan .nothing (quoteName name ++ ' ' :: rest) =
      scan (.quoted []) (name.toList.flatMap
        (fun c => if c = '\x22' then ['\x22', '\x22'] else [c]) ++ '\x22' :: ' ' :: rest) := by
    simp only [quoteName, List.cons_append, List.append_assoc, List.nil_append]
    rfl
  have hclosed : scan (.quoted name.toList) ('\x22' :: ' ' :: rest) =
      .name (String.ofList name.toList) :: scan .nothing rest := rfl
  rw [hopened, scan_quoted, List.nil_append, hclosed, String.ofList_toList]

theorem scan_number (ds run rest : List Char) (hrun : ∀ d ∈ run, d.isDigit = true) :
    scan (.number ds) (run ++ rest) = scan (.number (ds ++ run)) rest := by
  induction run generalizing ds with
  | nil => simp
  | cons d run ih =>
    have hd : (Pending.number ds).extend d = some (.number (ds ++ [d])) := by
      simp [Pending.extend, hrun d List.mem_cons_self]
    rw [List.cons_append, scan_cons_of_extend hd,
      ih _ fun c hc => hrun c (List.mem_cons_of_mem d hc)]
    simp

theorem isDigit_of_not_isWordChar {c : Char} (h : isWordChar c = false) : c.isDigit = false := by
  simp only [isWordChar, Char.isAlphanum, Bool.or_eq_false_iff] at h
  exact h.1.1.2

/-- No word or number goes on into a text. -/
def Apart (text : List Char) : Prop := ∀ c ∈ text.head?, isWordChar c = false

theorem apart_cons {c : Char} (h : isWordChar c = false) (rest : List Char) :
    Apart (c :: rest) := by
  rintro _ ⟨⟩
  exact h

/-- A placeholder is one token, unless it goes on. -/
theorem scan_placeholder (n : ℕ) {rest : List Char} (h : Apart rest) :
    scan .nothing (placeholder n ++ rest) = .placeholder n :: scan .nothing rest := by
  have hopened : scan .nothing (placeholder n ++ rest) =
      scan (.number []) (Decimal.written n ++ rest) := rfl
  have hended : (Pending.number (Decimal.written n)).ended = [.placeholder n] := by
    simp [Pending.ended, Decimal.written_ne_nil, Decimal.value_written]
  rw [hopened, scan_number [] _ _ fun d => Decimal.isDigit_of_mem_written, List.nil_append]
  cases rest with
  | nil => exact hended
  | cons c rest =>
    have hc : (Pending.number (Decimal.written n)).extend c = none := by
      have hdigit : c.isDigit = false := isDigit_of_not_isWordChar (h c rfl)
      simp [Pending.extend, hdigit]
    rw [scan_cons_of_ended hc, hended, List.singleton_append]

/-! ### Rendered conditions -/

/-- Tokens with a sign between them. -/
def joined (sign : Token) : List (List Token) → List Token
  | [] => []
  | ts :: rest => ts ++ rest.flatMap (sign :: ·)

/-- The tokens of a comparison. -/
def Comparison.tokens (c : Comparison) : List Token :=
  match c.operator, c.placeholders with
  | .eq, [n] => [.name c.column, .equals, .placeholder n]
  | _, ns =>
    .name c.column :: .isIn :: .opened :: joined .comma (ns.map fun n => [.placeholder n]) ++
      [.closed]

/-- The tokens of a disjunction, in parentheses if it has several parts. -/
def Term.tokens : Term → List Token
  | [] => [.falsity]
  | [c] => c.tokens
  | cs => .opened :: joined .or (cs.map Comparison.tokens) ++ [.closed]

/-- What is rendered with a separator between is split into what it was rendered from, with a sign
between. -/
theorem scan_separated {α : Type} {sep : List Char} {sign : Token} {chars : α → List Char}
    {tokens : α → List Token} (hsep : ∀ rest, Apart (sep ++ rest) ∧
      scan .nothing (sep ++ rest) = sign :: scan .nothing rest)
    (hchars : ∀ a rest, Apart rest →
      scan .nothing (chars a ++ rest) = tokens a ++ scan .nothing rest)
    (as : List α) {rest : List Char} (h : Apart rest) :
    scan .nothing (separated sep (as.map chars) ++ rest) =
      joined sign (as.map tokens) ++ scan .nothing rest := by
  induction as with
  | nil => rfl
  | cons a as ih =>
    cases as with
    | nil => simpa [separated, joined] using hchars a rest h
    | cons b as =>
      rw [List.map_cons, List.map_cons, separated, List.append_assoc, List.append_assoc,
        hchars a _ (hsep _).1, (hsep _).2, ← List.map_cons, ih]
      simp [joined]

theorem Comparison.scan_chars (c : Comparison) {rest : List Char} (h : Apart rest) :
    scan .nothing (c.chars ++ rest) = c.tokens ++ scan .nothing rest := by
  obtain ⟨column, operator, ns⟩ := c
  have hplaceholder : ∀ n rest, Apart rest →
      scan .nothing (placeholder n ++ rest) = [.placeholder n] ++ scan .nothing rest :=
    fun n _ h => scan_placeholder n h
  have hcomma : ∀ rest, Apart ([',', ' '] ++ rest) ∧
      scan .nothing ([',', ' '] ++ rest) = .comma :: scan .nothing rest :=
    fun rest => ⟨apart_cons rfl _, rfl⟩
  have hopened : ∀ rest, scan .nothing ('I' :: 'N' :: ' ' :: '(' :: rest) =
      .isIn :: .opened :: scan .nothing rest := fun _ => rfl
  have hclosed : Apart (')' :: rest) := apart_cons rfl rest
  have hlist : scan .nothing (quoteName column ++ [' ', 'I', 'N', ' ', '('] ++
      separated [',', ' '] (ns.map placeholder) ++ [')'] ++ rest) =
      .name column :: .isIn :: .opened :: joined .comma (ns.map fun n => [.placeholder n]) ++
        [.closed] ++ scan .nothing rest := by
    simp only [List.append_assoc, List.cons_append, List.nil_append, scan_quoteName, hopened,
      scan_separated hcomma hplaceholder ns hclosed]
    rfl
  -- an equation that has not exactly one value is rendered as a list
  cases operator with
  | isIn => exact hlist
  | eq =>
    rcases ns with _ | ⟨n, _ | ⟨m, ns⟩⟩
    · exact hlist
    · have hequals : ∀ rest, scan .nothing ('=' :: ' ' :: rest) = .equals :: scan .nothing rest :=
        fun _ => rfl
      simp only [Comparison.chars, Comparison.tokens, List.append_assoc, List.cons_append,
        List.nil_append, scan_quoteName, hequals, scan_placeholder n h]
    · exact hlist

/-- **A rendered disjunction is split into its tokens**, whatever follows that is
apart from it. -/
theorem Term.scan_chars (t : Term) {rest : List Char} (h : Apart rest) :
    scan .nothing (t.chars ++ rest) = t.tokens ++ scan .nothing rest := by
  rcases t with _ | ⟨c, _ | ⟨d, t⟩⟩
  · -- the keyword would go on into a letter
    cases rest with
    | nil => rfl
    | cons c rest =>
      have hword : (Pending.word ['F', 'A', 'L', 'S', 'E']).extend c = none := by
        simp [Pending.extend, h c rfl]
      exact scan_cons_of_ended hword rest
  · exact c.scan_chars h
  · have hor : ∀ rest, Apart ([' ', 'O', 'R', ' '] ++ rest) ∧
        scan .nothing ([' ', 'O', 'R', ' '] ++ rest) = .or :: scan .nothing rest :=
      fun rest => ⟨apart_cons rfl _, rfl⟩
    have hopened : ∀ rest, scan .nothing ('(' :: rest) = .opened :: scan .nothing rest :=
      fun _ => rfl
    have hclosed : Apart (')' :: rest) := apart_cons rfl rest
    simp only [Term.chars, Term.tokens, List.append_assoc, List.cons_append, List.nil_append,
      hopened, scan_separated hor Comparison.scan_chars (c :: d :: t) hclosed]
    rfl

end RecordAccess.Sql
