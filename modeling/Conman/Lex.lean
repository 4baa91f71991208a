/-
The configuration file's tokens as `server-conf.c` sees them through `lex.h`, whose code
is not among the sources: `lex_next` hands out the tokens of the file one at a time and
`LEX_EOF` for ever after them, and `lex_prev`, `lex_text` and `lex_line` answer about the
last token handed out.

The parsers read the file line by line. What makes that true is `Lex.next_extend`: while
the end of the current line is still ahead, what follows it cannot change what
`lex_next` answers.

The constants of the headers (`MAX_LINE`, `MAX_BUF_SIZE`, `DEFAULT_CONSOLE_BAUD`,
`DEFAULT_CONMAN_PORT`, `DEFAULT_SERVER_CONF`) are not among the sources either: they
are the fields of `Consts`.
-/
import Mathlib.Data.List.Basic

namespace Conman

/-- The keywords of `server_conf_strs`, in its order. -/
inductive Kw where
  | bps | console | dev | keepalive | log | logfile | loopback | name | off | on | pidfile
  | port | server | timestamp
deriving DecidableEq, Repr

/-- `server_conf_strs[LEX_UNTOK(tok)]`. -/
def Kw.str : Kw → String
  | .bps => "BPS"
  | .console => "CONSOLE"
  | .dev => "DEV"
  | .keepalive => "KEEPALIVE"
  | .log => "LOG"
  | .logfile => "LOGFILE"
  | .loopback => "LOOPBACK"
  | .name => "NAME"
  | .off => "OFF"
  | .on => "ON"
  | .pidfile => "PIDFILE"
  | .port => "PORT"
  | .server => "SERVER"
  | .timestamp => "TIMESTAMP"

/-- What `lex_next` answers: a keyword, `LEX_STR`, `LEX_INT`, `LEX_EOL`, `LEX_EOF`,
`LEX_ERR` (an unmatched quote), or a character the lexer hands through, such as `=`. -/
inductive Tok where
  | kw (k : Kw)
  | str
  | int
  | eol
  | eof
  | err
  | char (c : Char)
deriving DecidableEq, Repr

/-- `server_conf_strs[LEX_UNTOK(lex_prev(l))]`, the directive's keyword. -/
def Tok.kwStr : Tok → String
  | .kw k => k.str
  | _ => ""

/-- A token of the file. The file ends where its list of tokens does, so no token of it
is `LEX_EOF`. -/
structure Token where
  tok : Tok
  text : String
  line : Nat
  not_eof : tok ≠ .eof

/-- A keyword as the lexer hands it out. -/
def Token.keyword (k : Kw) (line : Nat) : Token := ⟨.kw k, k.str, line, fun h => by cases h⟩

/-- A `STRING`, its text without the quotes. -/
def Token.string (text : String) (line : Nat) : Token := ⟨.str, text, line, fun h => by cases h⟩

/-- An `INT`. -/
def Token.integer (text : String) (line : Nat) : Token := ⟨.int, text, line, fun h => by cases h⟩

/-- The `=` of `KEY=VALUE`. -/
def Token.equals (line : Nat) : Token := ⟨.char '=', "=", line, fun h => by cases h⟩

/-- The end of a line. -/
def Token.endOfLine (line : Nat) : Token := ⟨.eol, "", line, fun h => by cases h⟩

/-- The lexer: the tokens still to come, and what `lex_prev`, `lex_text` and `lex_line`
answer. -/
structure Lex where
  rest : List Token
  prev : Tok
  text : String
  line : Nat

/-- `lex_create(buf, server_conf_strs)` over the file's tokens. -/
def Lex.create (ts : List Token) : Lex := ⟨ts, .eof, "", 0⟩

/-- `lex_next(l)`. -/
def Lex.next (l : Lex) : Tok × Lex :=
  match l.rest with
  | [] => (.eof, { l with prev := .eof })
  | t :: ts => (t.tok, ⟨ts, t.tok, t.text, t.line⟩)

/-- The lexer with the tokens `more` after the ones it has. -/
def Lex.extend (l : Lex) (more : List Token) : Lex := { l with rest := l.rest ++ more }

/-- The end of the current line is still ahead. -/
def Lex.Open (l : Lex) : Prop := ∃ t ∈ l.rest, t.tok = .eol

/-- The tokens after the first end of line. -/
def dropLine : List Token → List Token
  | [] => []
  | t :: ts => if t.tok = .eol then ts else dropLine ts

/-- The lexer is inside a line: the last token it handed out ends neither the line nor
the file. -/
def Lex.Mid (l : Lex) : Prop := l.prev ≠ .eol ∧ l.prev ≠ .eof

instance (l : Lex) : Decidable l.Mid := inferInstanceAs (Decidable (_ ∧ _))

/-- The tokens after the end of the line the lexer is in. -/
def Lex.lineRest (l : Lex) : List Token := if l.Mid then dropLine l.rest else l.rest

/-- Inside a line, the line's end is still ahead. -/
def Lex.Aligned (l : Lex) : Prop := l.Mid → l.Open

/-- What is left is one line, ended by its end of line. -/
def Lex.OneLine (l : Lex) : Prop :=
  ∃ cur e, l.rest = cur ++ [e] ∧ e.tok = .eol ∧ ∀ t ∈ cur, t.tok ≠ .eol

/-- The resynchronisation `while (lex_prev(l) != LEX_EOL && lex_prev(l) != LEX_EOF)
lex_next(l);`. -/
def Lex.skipLine (l : Lex) : Lex :=
  if l.prev = .eol ∨ l.prev = .eof then l else (l.next).2.skipLine
termination_by l.rest.length + if l.prev = .eof then 0 else 1
decreasing_by
  rename_i hstop
  have hp : l.prev ≠ .eof := fun he => hstop (.inr he)
  unfold Lex.next; split
  · simp [hp]
  · rename_i t ts h; simp [h, t.not_eof, hp]

/-! ## `lex_next` -/

namespace Lex

variable {l : Lex}

@[simp] theorem extend_rest (more : List Token) : (l.extend more).rest = l.rest ++ more := rfl
@[simp] theorem extend_prev (more : List Token) : (l.extend more).prev = l.prev := rfl
@[simp] theorem extend_text (more : List Token) : (l.extend more).text = l.text := rfl
@[simp] theorem extend_line (more : List Token) : (l.extend more).line = l.line := rfl

@[simp] theorem next_prev : (l.next).2.prev = (l.next).1 := by
  unfold next; split <;> rfl

theorem next_eof_iff : (l.next).1 = .eof ↔ l.rest = [] := by
  unfold next; split
  · simp_all
  · rename_i t ts h; simp [h, t.not_eof]

theorem next_rest_le : (l.next).2.rest.length ≤ l.rest.length := by
  unfold next; split <;> simp_all

theorem next_rest_lt (h : (l.next).1 ≠ .eof) : (l.next).2.rest.length < l.rest.length := by
  unfold next at h ⊢; split
  · simp_all
  · simp_all

/-- **What follows the current line is out of `lex_next`'s sight** while the line's end is
ahead. -/
theorem next_extend (h : l.Open) (more : List Token) :
    (l.extend more).next = ((l.next).1, (l.next).2.extend more) := by
  obtain ⟨t, ht, -⟩ := h
  cases hr : l.rest with
  | nil => simp [hr] at ht
  | cons t ts => simp [next, extend, hr]

/-- Until it hands out the end of the line, `lex_next` keeps the end ahead. -/
theorem next_open (h : l.Open) (hne : (l.next).1 ≠ .eol) : (l.next).2.Open := by
  obtain ⟨e, he, hee⟩ := h
  cases hr : l.rest with
  | nil => simp [hr] at he
  | cons t ts =>
    simp only [next, hr] at hne ⊢
    rw [hr, List.mem_cons] at he
    rcases he with rfl | he
    · exact absurd hee hne
    · exact ⟨e, he, hee⟩

theorem mid_iff : l.Mid ↔ ¬(l.prev = .eol ∨ l.prev = .eof) := by rw [Mid, not_or]

theorem rest_of_not_mid (h : ¬l.Mid) : l.rest = l.lineRest := (if_neg h).symm

theorem next_mid (h : (l.next).1 ≠ .eol) (h' : (l.next).1 ≠ .eof) : (l.next).2.Mid := by
  simp only [Mid, next_prev]; exact ⟨h, h'⟩

theorem next_aligned (h : l.Open) : (l.next).2.Aligned := fun hm =>
  next_open h (by rw [← next_prev]; exact hm.1)

/-- Inside a line, `lex_next` does not move the line's end. -/
theorem next_lineRest (h : l.Mid) : (l.next).2.lineRest = l.lineRest := by
  rw [show l.lineRest = dropLine l.rest from if_pos h]
  cases hr : l.rest with
  | nil => simp [next, lineRest, Mid, hr, dropLine]
  | cons t ts =>
    by_cases he : t.tok = .eol
    · simp [next, lineRest, Mid, hr, he, dropLine]
    · simp [next, lineRest, Mid, hr, he, t.not_eof, dropLine]

theorem next_eq_of_rest {l' : Lex} (h : l.rest = l'.rest) (hne : l.rest ≠ []) :
    l.next = l'.next := by
  unfold next; rw [← h]; split
  · contradiction
  · rfl

theorem oneLine_open (h : l.OneLine) : l.Open := by
  obtain ⟨cur, e, hr, he, -⟩ := h
  exact ⟨e, by simp [hr], he⟩

/-- On a last line, `lex_next` hands out the end of the line and nothing is left, or a
token inside the line and the line's rest is left. -/
theorem next_oneLine (h : l.OneLine) :
    ((l.next).1 = .eol ∧ (l.next).2.rest = []) ∨
      ((l.next).1 ≠ .eol ∧ (l.next).1 ≠ .eof ∧ (l.next).2.OneLine) := by
  obtain ⟨cur, e, hr, he, hcur⟩ := h
  cases cur with
  | nil => left; simp [next, hr, he]
  | cons t cur =>
    right
    have ht : t.tok ≠ .eol := hcur t (List.mem_cons_self _ _)
    simp only [next, hr, List.cons_append]
    exact ⟨ht, t.not_eof, cur, e, rfl, he, fun u hu => hcur u (List.mem_cons_of_mem _ hu)⟩

theorem skipLine_prev : l.skipLine.prev = .eol ∨ l.skipLine.prev = .eof := by
  induction l using skipLine.induct with
  | case1 l h => rw [skipLine, if_pos h]; exact h
  | case2 l h ih => rw [skipLine, if_neg h]; exact ih

theorem skipLine_rest_le : l.skipLine.rest.length ≤ l.rest.length := by
  induction l using skipLine.induct with
  | case1 l h => rw [skipLine, if_pos h]
  | case2 l h ih => rw [skipLine, if_neg h]; exact ih.trans next_rest_le

theorem skipLine_lineRest : l.skipLine.lineRest = l.lineRest := by
  induction l using skipLine.induct with
  | case1 l h => rw [skipLine, if_pos h]
  | case2 l h ih => rw [skipLine, if_neg h, ih, next_lineRest (mid_iff.mpr h)]

/-- **The resynchronisation stops right after the line's end**, or at the end of the
file. -/
theorem skipLine_rest : l.skipLine.rest = l.lineRest := by
  rw [← skipLine_lineRest, lineRest, if_neg (mid_iff.not_left.mpr skipLine_prev)]

/-- The resynchronisation reads to the end of the line and no further. -/
theorem skipLine_extend (h : l.Aligned) (more : List Token) :
    (l.extend more).skipLine = l.skipLine.extend more := by
  induction l using skipLine.induct with
  | case1 l hp =>
    rw [skipLine.eq_1 (l.extend more), skipLine.eq_1 l, extend_prev, if_pos hp, if_pos hp]
  | case2 l hp ih =>
    have ho : l.Open := h (mid_iff.mpr hp)
    rw [skipLine.eq_1 (l.extend more), skipLine.eq_1 l, extend_prev, if_neg hp, if_neg hp,
      next_extend ho]
    exact ih (next_aligned ho)

end Lex

theorem dropLine_append {cur : List Token} (hcur : ∀ t ∈ cur, t.tok ≠ .eol) {e : Token}
    (he : e.tok = .eol) (more : List Token) : dropLine (cur ++ e :: more) = more := by
  induction cur with
  | nil => simp [dropLine, he]
  | cons t cur ih =>
    simp only [List.cons_append, dropLine, if_neg (hcur t (List.mem_cons_self _ _))]
    exact ih fun u hu => hcur u (List.mem_cons_of_mem _ hu)

theorem Lex.OneLine.dropLine_eq {l : Lex} (h : l.OneLine) : dropLine l.rest = [] := by
  obtain ⟨cur, e, hr, he, hcur⟩ := h
  rw [hr, dropLine_append hcur he]

/-! ## The headers' constants and the C library -/

/-- The constants of the headers `server-conf.c` includes. `MAX_BUF_SIZE`, the size of an
object's buffer, is positive. -/
structure Consts where
  maxLine : Nat
  defaultConsoleBaud : Int
  defaultConmanPort : Int
  defaultServerConf : String
  maxBufSize : Nat
  maxBufSize_pos : 0 < maxBufSize

/-- A build of the daemon, for the statements made at fixed inputs. -/
def Consts.sample : Consts := ⟨1024, 9600, 7890, "/etc/conman.conf", 1024, by decide⟩

/-- `strlcpy(dst, src, MAX_LINE)` and `snprintf(err, sizeof(err), ...)` into a buffer of
`MAX_LINE` bytes: at most `MAX_LINE - 1` characters are kept. -/
def Consts.fit (K : Consts) (s : String) : String := ⟨s.data.take (K.maxLine - 1)⟩

theorem Consts.fit_empty (K : Consts) : K.fit "" = "" := congrArg String.mk List.take_nil

theorem Consts.fit_eq_empty {K : Consts} (hK : 2 ≤ K.maxLine) {s : String} :
    K.fit s = "" ↔ s = "" := by
  unfold Consts.fit
  constructor
  · intro h
    have := congrArg String.data h
    simp only [String.data] at this
    cases hs : s.data with
    | nil => exact String.ext hs
    | cons c cs =>
      rw [hs, List.take_cons (by omega)] at this; cases this
  · rintro rfl; exact K.fit_empty

/-- `isspace(c)` in the C locale: space, `\t`, `\n`, `\v`, `\f` and `\r`. -/
def isSpace (c : Char) : Bool :=
  c = ' ' || c = '\t' || c = '\n' || c = '\x0b' || c = '\x0c' || c = '\r'

/-- The conversion of a `long` to `int`: the low 32 bits, read in two's complement. -/
def toCInt (v : Int) : Int := (v + 2147483648) % 4294967296 - 2147483648

/-- `atoi(s)`, which the C library computes as `(int) strtol(s, NULL, 10)`: `strtol`
skips leading `isspace` characters, reads an optional sign and the digits after it (no
digits give 0), and saturates at `LONG_MIN` and `LONG_MAX` (64 bits); the cast keeps the
low 32 bits. -/
def atoi (s : String) : Int :=
  let cs := s.data.dropWhile isSpace
  let (neg, cs) : Bool × List Char := match cs with
    | '-' :: cs => (true, cs)
    | '+' :: cs => (false, cs)
    | cs => (false, cs)
  let n : Nat := (cs.takeWhile Char.isDigit).foldl (fun n c => 10 * n + (c.toNat - '0'.toNat)) 0
  toCInt (if neg then max (-n) (-9223372036854775808) else min n 9223372036854775807)

example : atoi "\x0b\x0c 42" = 42 ∧ atoi "2147483648" = -2147483648 ∧ atoi "4294967297" = 1 ∧
    atoi "99999999999999999999" = -1 := by decide

end Conman
