/-
`parse_console_directive` and `parse_server_directive` (`server-conf.c`): the two
directives of the configuration file, read option by option until the end of the line
or the first error, with the resynchronisation to the line's end after an error.

Every option is `KEY=VALUE` and each keyword case repeats the same two `lex_next` calls
with their messages: here that is `keyValue`, given the test each case makes of the
value (`stringValue`, `intValue`, `onOffValue`).

Both directives read their own line and nothing after it. For a lexer whose line's end
is ahead, `parseConsoleDirective_extend` and `parseServerDirective_extend` say that the
tokens after the line change nothing; `parseConsoleDirective_rest` and
`parseServerDirective_rest` that the directive stops right after the line's end. Both
need `MAX_LINE` to be at least 2: a shorter `err` buffer holds no message, and the loops
would read on past an error.
-/
import Conman.Lex
import Conman.Link

namespace Conman

/-! ## Messages -/

namespace Msg

def expectedEq (k : Kw) : String := "expected \x27=\x27 after " ++ k.str ++ " keyword"

def expectedString (k : Kw) : String := "expected STRING for " ++ k.str ++ " value"

def expectedInteger (k : Kw) : String := "expected INTEGER for " ++ k.str ++ " value"

def invalidValue (k : Kw) (n : Int) : String := "invalid " ++ k.str ++ " value " ++ toString n

def expectedOnOff (k : Kw) : String := "expected ON or OFF for " ++ k.str ++ " value"

def notImplemented (k : Kw) : String := k.str ++ " keyword not yet implemented"

def unmatchedQuote : String := "unmatched quote"

def unrecognized (text : String) : String := "unrecognized token \x27" ++ text ++ "\x27"

def incomplete (directive : String) : String := "incomplete " ++ directive ++ " directive"

/-- `"ERROR: %s:%d: %s.\n"`, the line every error prints. -/
def errorLine (file : String) (line : Nat) (err : String) : String :=
  "ERROR: " ++ file ++ ":" ++ toString line ++ ": " ++ err ++ "."

theorem append_ne_empty {a : String} (b : String) (h : a ≠ "") : a ++ b ≠ "" := fun hab =>
  h (String.ext (List.append_eq_nil.mp (by rw [← String.data_append, hab])).1)

theorem expectedEq_ne (k : Kw) : expectedEq k ≠ "" :=
  append_ne_empty _ (append_ne_empty _ (by decide))

theorem unmatchedQuote_ne : unmatchedQuote ≠ "" := by decide

theorem unrecognized_ne (text : String) : unrecognized text ≠ "" :=
  append_ne_empty _ (append_ne_empty _ (by decide))

theorem notImplemented_ne (k : Kw) : notImplemented k ≠ "" :=
  append_ne_empty _ (by cases k <;> decide)

theorem incomplete_ne (directive : String) : incomplete directive ≠ "" :=
  append_ne_empty _ (append_ne_empty _ (by decide))

end Msg

/-- Where a line is printed: `printf` writes to stdout, `fprintf(stderr, ...)` to stderr. -/
inductive Stdio where
  | stdout
  | stderr
deriving DecidableEq, Repr

/-- A line printed on a stream. -/
structure Printed where
  stream : Stdio
  text : String
deriving DecidableEq, Repr

/-! ## The configuration -/

/-- `server_conf_t` as the two `process_server_*` functions fill it in. The descriptor
`fd` and its lock, and `logname` and `ld`, which nothing here sets, are left out.
`conf->objs` holds the addresses of the objects created, in order, in `heap`. -/
structure ServerConfig where
  filename : String
  port : Int
  enableKeepAlive : Bool
  enableZeroLogs : Bool
  enableLoopBack : Bool
  enableVerbose : Bool
  objs : List Nat
  heap : Heap

/-- `create_server_conf()`. -/
def createServerConf (K : Consts) : ServerConfig where
  filename := K.defaultServerConf
  port := 0
  enableKeepAlive := true
  enableZeroLogs := false
  enableLoopBack := false
  enableVerbose := false
  objs := []
  heap := Heap.empty

/-- `if (lex_next(l) != '=') <message> else <the test of lex_next(l)>`, the shape of
every keyword case: `value` judges the token after the `=` and its text. -/
def keyValue {α : Type} (l : Lex) (k : Kw) (value : Tok → String → Except String α) :
    Lex × Except String α :=
  let a := l.next
  if a.1 ≠ .char '=' then (a.2, .error (Msg.expectedEq k)) else
  let b := a.2.next
  (b.2, value b.1 b.2.text)

/-- `else if (lex_next(l) != LEX_STR) <message> else strlcpy(..., lex_text(l), ...)`. -/
def stringValue (k : Kw) (t : Tok) (text : String) : Except String String :=
  if t ≠ .str then .error (Msg.expectedString k) else .ok text

/-- `else if (lex_next(l) != LEX_STR && lex_prev(l) != LEX_INT) <message> else if
((n = atoi(lex_text(l))) <= 0) <message>`; `lex_prev` is the token `lex_next` just
answered. -/
def intValue (k : Kw) (t : Tok) (text : String) : Except String Int :=
  if t ≠ .str ∧ t ≠ .int then .error (Msg.expectedInteger k)
  else if atoi text ≤ 0 then .error (Msg.invalidValue k (atoi text))
  else .ok (atoi text)

/-- `else if (lex_next(l) == SERVER_CONF_ON) 1 else if (lex_prev(l) == SERVER_CONF_OFF) 0
else <message>`. -/
def onOffValue (k : Kw) (t : Tok) (_text : String) : Except String Bool :=
  if t = .kw .on then .ok true
  else if t = .kw .off then .ok false
  else .error (Msg.expectedOnOff k)

/-- A test accepts only a value token, never the end of the line or of the file, and
its messages are not empty. -/
structure ValueTest {α : Type} (value : Tok → String → Except String α) : Prop where
  ok : ∀ t text v, value t text = .ok v → t ≠ .eol ∧ t ≠ .eof
  error : ∀ t text e, value t text = .error e → e ≠ ""

theorem stringValue_test (k : Kw) : ValueTest (stringValue k) where
  ok t text v h := by unfold stringValue at h; split at h <;> simp_all
  error t text e h := by
    unfold stringValue at h; split at h
    · cases h; exact Msg.append_ne_empty _ (Msg.append_ne_empty _ (by decide))
    · cases h

theorem intValue_test (k : Kw) : ValueTest (intValue k) where
  ok t text v h := by
    unfold intValue at h; split at h
    · cases h
    · rename_i ht; rw [not_and_or, not_not, not_not] at ht; rcases ht with rfl | rfl <;> simp
  error t text e h := by
    unfold intValue at h; split_ifs at h <;> cases h
    · exact Msg.append_ne_empty _ (Msg.append_ne_empty _ (by decide))
    · exact Msg.append_ne_empty _ (Msg.append_ne_empty _ (Msg.append_ne_empty _ (by decide)))

theorem onOffValue_test (k : Kw) : ValueTest (onOffValue k) where
  ok t text v h := by unfold onOffValue at h; split_ifs at h <;> simp_all
  error t text e h := by
    unfold onOffValue at h; split_ifs at h; cases h
    exact Msg.append_ne_empty _ (Msg.append_ne_empty _ (by decide))

section
variable {l : Lex} {α : Type} {k : Kw} {value : Tok → String → Except String α}

theorem keyValue_rest_le : (keyValue l k value).1.rest.length ≤ l.rest.length := by
  unfold keyValue; dsimp only; split
  · exact Lex.next_rest_le
  · exact Lex.next_rest_le.trans Lex.next_rest_le

theorem keyValue_extend (h : l.Open) (more : List Token) :
    keyValue (l.extend more) k value =
      ((keyValue l k value).1.extend more, (keyValue l k value).2) := by
  unfold keyValue; rw [Lex.next_extend h]; dsimp only
  split
  · rfl
  · rename_i he
    rw [Lex.next_extend (Lex.next_open h (by rw [not_not.mp he]; decide))]; rfl

theorem keyValue_lineRest (h : l.Mid) : (keyValue l k value).1.lineRest = l.lineRest := by
  unfold keyValue; dsimp only; split
  · exact Lex.next_lineRest h
  · rename_i he
    rw [Lex.next_lineRest (Lex.next_mid (by rw [not_not.mp he]; decide)
      (by rw [not_not.mp he]; decide)), Lex.next_lineRest h]

theorem keyValue_aligned (h : l.Open) : (keyValue l k value).1.Aligned := by
  unfold keyValue; dsimp only; split
  · exact Lex.next_aligned h
  · rename_i he
    exact Lex.next_aligned (Lex.next_open h (by rw [not_not.mp he]; decide))

/-- After a value the test accepts, the lexer is still inside the line. -/
theorem keyValue_ok_mid (hv : ValueTest value) {v : α} (hok : (keyValue l k value).2 = .ok v) :
    (keyValue l k value).1.Mid := by
  unfold keyValue at hok ⊢; dsimp only at hok ⊢
  split at hok
  · cases hok
  · rename_i he
    rw [if_neg he]
    obtain ⟨h1, h2⟩ := hv.ok _ _ _ hok; exact Lex.next_mid h1 h2

theorem keyValue_error_ne (hv : ValueTest value) {e : String}
    (herr : (keyValue l k value).2 = .error e) : e ≠ "" := by
  unfold keyValue at herr; dsimp only at herr
  split at herr
  · cases herr; exact Msg.expectedEq_ne k
  · exact hv.error _ _ _ herr

end

/-! ## The option loop -/

/-- One pass of the `switch` both directives run in `while (!done && !*err)`: where it
leaves the lexer, the locals it updates, and `done`; `err` reads the message the locals
hold. A pass that does not end the loop reads a token. -/
structure Pass (σ : Type) where
  run : Lex → σ → Lex × σ × Bool
  err : σ → String
  le : ∀ l s, (run l s).1.rest.length ≤ l.rest.length
  shrinks : ∀ l s, (run l s).2.2 = false → (run l s).1.rest.length < l.rest.length

/-- `while (!done && !*err) { tok = lex_next(l); switch (tok) { ... } }`. Its first pass
always runs, as `done` and `err` start cleared. -/
def Pass.loop {σ : Type} (p : Pass σ) (l : Lex) (s : σ) : Lex × σ :=
  let r := p.run l s
  if r.2.2 = true ∨ p.err r.2.1 ≠ "" then (r.1, r.2.1) else p.loop r.1 r.2.1
termination_by l.rest.length
decreasing_by
  rename_i hc
  exact p.shrinks l s (by simpa using (not_or.mp hc).1)

/-- A pass reads no further than the end of its line: with that end ahead, the tokens
after the line change nothing; it does not move the line's end; it ends the loop only at
the end of the line or of the file; and after a pass that lets the loop go on, the lexer
is inside the line. -/
structure Pass.Reads {σ : Type} (p : Pass σ) : Prop where
  extend : ∀ l s more, l.Open →
    p.run (l.extend more) s = ((p.run l s).1.extend more, (p.run l s).2)
  lineRest : ∀ l s, l.Mid → (p.run l s).1.lineRest = l.lineRest
  aligned : ∀ l s, l.Open → (p.run l s).1.Aligned
  done : ∀ l s, (p.run l s).2.2 = true → ¬(p.run l s).1.Mid
  goes_on : ∀ l s, (p.run l s).2.2 = false → p.err (p.run l s).2.1 = "" → (p.run l s).1.Mid

namespace Pass

section
variable {σ : Type} {p : Pass σ}

theorem loop_stop {l : Lex} {s : σ} (h : (p.run l s).2.2 = true ∨ p.err (p.run l s).2.1 ≠ "") :
    p.loop l s = ((p.run l s).1, (p.run l s).2.1) := by
  rw [loop]; exact if_pos h

theorem loop_go {l : Lex} {s : σ} (h : ¬((p.run l s).2.2 = true ∨ p.err (p.run l s).2.1 ≠ "")) :
    p.loop l s = p.loop (p.run l s).1 (p.run l s).2.1 := by
  rw [loop]; exact if_neg h

theorem loop_rest_le : ∀ l s, (p.loop l s).1.rest.length ≤ l.rest.length := by
  intro l s
  induction l, s using loop.induct p with
  | case1 l s r hstop => rw [loop_stop hstop]; exact p.le l s
  | case2 l s r hgo ih => rw [loop_go hgo]; exact ih.trans (p.le l s)

theorem goes_on_mid (hp : p.Reads) {l : Lex} {s : σ}
    (h : ¬((p.run l s).2.2 = true ∨ p.err (p.run l s).2.1 ≠ "")) : (p.run l s).1.Mid := by
  rw [not_or, not_not, Bool.not_eq_true] at h
  exact hp.goes_on l s h.1 h.2

end

namespace Reads
variable {σ : Type} {p : Pass σ} (hp : p.Reads)
include hp

/-- **The loop reads no further than the end of its line.** -/
theorem loop_extend (more : List Token) :
    ∀ l s, l.Open → p.loop (l.extend more) s = ((p.loop l s).1.extend more, (p.loop l s).2) := by
  intro l s
  induction l, s using loop.induct p with
  | case1 l s r hstop =>
    intro h
    rw [loop_stop hstop, loop_stop (by rwa [hp.extend l s more h])]
    rw [hp.extend l s more h]
  | case2 l s r hgo ih =>
    intro h
    rw [loop_go hgo, loop_go (by rwa [hp.extend l s more h]), hp.extend l s more h]
    exact ih (hp.aligned l s h (goes_on_mid hp hgo))

theorem loop_lineRest : ∀ l s, l.Mid → (p.loop l s).1.lineRest = l.lineRest := by
  intro l s
  induction l, s using loop.induct p with
  | case1 l s r hstop => intro h; rw [loop_stop hstop]; exact hp.lineRest l s h
  | case2 l s r hgo ih =>
    intro h; rw [loop_go hgo, ih (goes_on_mid hp hgo), hp.lineRest l s h]

theorem loop_aligned : ∀ l s, l.Open → (p.loop l s).1.Aligned := by
  intro l s
  induction l, s using loop.induct p with
  | case1 l s r hstop => intro h; rw [loop_stop hstop]; exact hp.aligned l s h
  | case2 l s r hgo ih =>
    intro h; rw [loop_go hgo]; exact ih (hp.aligned l s h (goes_on_mid hp hgo))

/-- A loop that ends with no message ends at the end of the line or of the file. -/
theorem loop_ends : ∀ l s, p.err (p.loop l s).2 = "" → ¬(p.loop l s).1.Mid := by
  intro l s
  induction l, s using loop.induct p with
  | case1 l s r hstop =>
    intro he; rw [loop_stop hstop] at he ⊢
    exact hp.done l s ((or_iff_left (not_not.mpr he)).mp hstop)
  | case2 l s r hgo ih => rw [loop_go hgo]; exact ih

end Reads

end Pass

/-! ## `parse_console_directive` -/

/-- The locals `parse_console_directive` fills in, `err`, `name`, `dev`, `log` and `bps`;
an empty string is a buffer whose first byte is NUL. -/
structure ConsoleArgs where
  err : String
  name : String
  dev : String
  log : String
  bps : Int

/-- The value read is stored by `set`, or the message goes into `err`. -/
def ConsoleArgs.store {α : Type} (K : Consts) (s : ConsoleArgs) (r : Except String α)
    (set : α → ConsoleArgs) : ConsoleArgs :=
  match r with
  | .ok v => set v
  | .error e => { s with err := K.fit e }

/-- One pass of the loop of `parse_console_directive`; the flag is `done`. `DEV` copies
`lex_text(l)` into `dev` a second time, whatever its reading gave. A `BPS` whose value
is not positive leaves that value in `bps` as well as the message; `bps` is never read
after an error, so only the message is kept. -/
def consoleOption (K : Consts) (l : Lex) (s : ConsoleArgs) : Lex × ConsoleArgs × Bool :=
  let a := l.next
  match a.1 with
  | .kw .name =>
    let r := keyValue a.2 .name (stringValue .name)
    (r.1, s.store K r.2 fun v => { s with name := K.fit v }, false)
  | .kw .dev =>
    let r := keyValue a.2 .dev (stringValue .dev)
    (r.1, { s.store K r.2 (fun v => { s with dev := K.fit v }) with dev := K.fit r.1.text },
      false)
  | .kw .log =>
    let r := keyValue a.2 .log (stringValue .log)
    (r.1, s.store K r.2 fun v => { s with log := K.fit v }, false)
  | .kw .bps =>
    let r := keyValue a.2 .bps (intValue .bps)
    (r.1, s.store K r.2 fun n => { s with bps := n }, false)
  | .eof | .eol => (a.2, s, true)
  | .err => (a.2, { s with err := K.fit Msg.unmatchedQuote }, false)
  | _ => (a.2, { s with err := K.fit (Msg.unrecognized a.2.text) }, false)

theorem consoleOption_rest_le {K : Consts} {l : Lex} {s : ConsoleArgs} :
    (consoleOption K l s).1.rest.length ≤ l.rest.length := by
  unfold consoleOption; dsimp only
  split <;> first | exact Lex.next_rest_le | exact keyValue_rest_le.trans Lex.next_rest_le

theorem consoleOption_rest_lt {K : Consts} {l : Lex} {s : ConsoleArgs}
    (hd : (consoleOption K l s).2.2 = false) :
    (consoleOption K l s).1.rest.length < l.rest.length := by
  unfold consoleOption at hd ⊢
  dsimp only at hd ⊢
  have hlt := Lex.next_rest_lt fun he => by rw [he] at hd; cases hd
  split <;> first | exact hlt | exact keyValue_rest_le.trans_lt hlt

/-- The pass of `parse_console_directive`. -/
def consolePass (K : Consts) : Pass ConsoleArgs where
  run := consoleOption K
  err := ConsoleArgs.err
  le _ _ := consoleOption_rest_le
  shrinks _ _ := consoleOption_rest_lt

/-- The loop of `parse_console_directive`. -/
def consoleLoop (K : Consts) (l : Lex) (s : ConsoleArgs) : Lex × ConsoleArgs :=
  (consolePass K).loop l s

/-- What the kernel answers the opens of the logfiles a configuration file creates: the
descriptor `open()` gives the logfile created at each address (negative on failure), and
what `create_time_string(0)` answers when it is opened. -/
structure LogOpens where
  openFd : Nat → Int
  now : Nat → String

/-- Opens that all succeed, for the statements made at fixed inputs. -/
def LogOpens.sample : LogOpens := ⟨fun p => p + 3, fun _ => "now"⟩

/-- Modelled from the spec. The calls `create_console_obj(conf->objs, name, dev, bps)`,
`create_logfile_obj(conf->objs, log, console, conf->enableZeroLogs)` and
`link_objs(console, logfile)` match no function of the sources. The constructors are those
of `server-obj.c`, the object allocated by them and its address appended to
`conf->objs`: the console gets no log or reset command of its own, so both stay
uninitialised, and `enableZeroLogs` is not read. `link_objs` is the spec's
`link(src, dst)`, which `create_obj_link` implements: the console is linked to the
logfile and the logfile opened, its header written into its buffer. The logfile just
created has no writer, so nothing is stolen and the fuel of the steal's close is never
used. Neither constructor answers NULL (a failed assert aborts, and `err_msg` exits when
`malloc` fails), so the two `log_msg` branches are dead and left out. -/
def registerConsole (K : Consts) (io : LogOpens) (conf : ServerConfig) (name dev log : String)
    (bps : Int) : Except Fault ServerConfig := do
  let (h, c) ← createConsoleObj conf.heap name dev "" "" bps
  let conf := { conf with heap := h, objs := conf.objs ++ [c] }
  if log = "" then pure conf else
  let (h, lf) := createLogfileObj conf.heap log
  let h ← createObjLink K.maxBufSize 0 h c lf (io.openFd lf) (io.now lf)
  pure { conf with heap := h, objs := conf.objs ++ [lf] }

/-- The check `if (!*err && (!*name || !*dev))` after the loop. -/
def ConsoleArgs.complete (K : Consts) (directive : String) (s : ConsoleArgs) : ConsoleArgs :=
  if s.err = "" ∧ (s.name = "" ∨ s.dev = "") then { s with err := K.fit (Msg.incomplete directive) }
  else s

/-- `parse_console_directive(l, conf)`, called when `lex_next` has just answered
`CONSOLE`: where it leaves the lexer, and the configuration and the lines it prints. -/
def parseConsoleDirective (K : Consts) (io : LogOpens) (l : Lex) (conf : ServerConfig) :
    Lex × Except Fault (ServerConfig × List Printed) :=
  let r := consoleLoop K l ⟨"", "", "", "", K.defaultConsoleBaud⟩
  let s := r.2.complete K l.prev.kwStr
  if s.err ≠ "" then
    (r.1.skipLine, pure (conf, [⟨.stderr, Msg.errorLine conf.filename r.1.line s.err⟩]))
  else (r.1, (registerConsole K io conf s.name s.dev s.log s.bps).map fun conf => (conf, []))

/-! ## `parse_server_directive` -/

/-- The value read is stored by `set`, or the configuration is kept and the message
returned. -/
def ServerConfig.store {α : Type} (K : Consts) (conf : ServerConfig) (r : Except String α)
    (set : α → ServerConfig) : ServerConfig × String :=
  match r with
  | .ok v => (set v, "")
  | .error e => (conf, K.fit e)

/-- One pass of the loop of `parse_server_directive`: the lexer, the configuration with
`err`, and `done`. The pass writes `err` and never reads it. `LOGFILE`, `PIDFILE` and
`TIMESTAMP` read one token, and whatever it is, the second `snprintf` leaves the message
that the keyword is not implemented. -/
def serverOption (K : Consts) (l : Lex) (st : ServerConfig × String) :
    Lex × (ServerConfig × String) × Bool :=
  let conf := st.1
  let a := l.next
  match a.1 with
  | .kw .keepalive =>
    let r := keyValue a.2 .keepalive (onOffValue .keepalive)
    (r.1, conf.store K r.2 fun b => { conf with enableKeepAlive := b }, false)
  | .kw .logfile => ((a.2.next).2, (conf, K.fit (Msg.notImplemented .logfile)), false)
  | .kw .loopback =>
    let r := keyValue a.2 .loopback (onOffValue .loopback)
    (r.1, conf.store K r.2 fun b => { conf with enableLoopBack := b }, false)
  | .kw .pidfile => ((a.2.next).2, (conf, K.fit (Msg.notImplemented .pidfile)), false)
  | .kw .port =>
    let r := keyValue a.2 .port (intValue .port)
    (r.1, conf.store K r.2 fun n => { conf with port := n }, false)
  | .kw .timestamp => ((a.2.next).2, (conf, K.fit (Msg.notImplemented .timestamp)), false)
  | .eof | .eol => (a.2, (conf, ""), true)
  | .err => (a.2, (conf, K.fit Msg.unmatchedQuote), false)
  | _ => (a.2, (conf, K.fit (Msg.unrecognized a.2.text)), false)

theorem serverOption_rest_le {K : Consts} {l : Lex} {st : ServerConfig × String} :
    (serverOption K l st).1.rest.length ≤ l.rest.length := by
  unfold serverOption; dsimp only
  split <;>
    first
    | exact Lex.next_rest_le
    | exact keyValue_rest_le.trans Lex.next_rest_le
    | exact Lex.next_rest_le.trans Lex.next_rest_le

theorem serverOption_rest_lt {K : Consts} {l : Lex} {st : ServerConfig × String}
    (hd : (serverOption K l st).2.2 = false) :
    (serverOption K l st).1.rest.length < l.rest.length := by
  unfold serverOption at hd ⊢
  dsimp only at hd ⊢
  have hlt := Lex.next_rest_lt fun he => by rw [he] at hd; cases hd
  split <;>
    first | exact hlt | exact keyValue_rest_le.trans_lt hlt | exact Lex.next_rest_le.trans_lt hlt

/-- The pass of `parse_server_directive`. -/
def serverPass (K : Consts) : Pass (ServerConfig × String) where
  run := serverOption K
  err := Prod.snd
  le _ _ := serverOption_rest_le
  shrinks _ _ := serverOption_rest_lt

/-- The loop of `parse_server_directive`, from an empty `err`. -/
def serverLoop (K : Consts) (l : Lex) (conf : ServerConfig) : Lex × ServerConfig × String :=
  (serverPass K).loop l (conf, "")

/-- `parse_server_directive(l, conf)`, called when `lex_next` has just answered `SERVER`.
Its `directive` is computed and never used. -/
def parseServerDirective (K : Consts) (l : Lex) (conf : ServerConfig) :
    Lex × ServerConfig × List Printed :=
  let r := serverLoop K l conf
  if r.2.2 ≠ "" then (r.1.skipLine, r.2.1, [⟨.stderr, Msg.errorLine r.2.1.filename r.1.line r.2.2⟩])
  else (r.1, r.2.1, [])

/-! ## Each directive reads its own line -/

theorem ConsoleArgs.store_ok {α : Type} {K : Consts} (hK : 2 ≤ K.maxLine) {s : ConsoleArgs}
    {r : Except String α} {set : α → ConsoleArgs} (hne : ∀ e, r = .error e → e ≠ "")
    (h : (s.store K r set).err = "") : ∃ v, r = .ok v := by
  cases r with
  | ok v => exact ⟨v, rfl⟩
  | error e => exact absurd ((Consts.fit_eq_empty hK).mp h) (hne e rfl)

theorem ServerConfig.store_ok {α : Type} {K : Consts} (hK : 2 ≤ K.maxLine) {conf : ServerConfig}
    {r : Except String α} {set : α → ServerConfig} (hne : ∀ e, r = .error e → e ≠ "")
    (h : (conf.store K r set).2 = "") : ∃ v, r = .ok v := by
  cases r with
  | ok v => exact ⟨v, rfl⟩
  | error e => exact absurd ((Consts.fit_eq_empty hK).mp h) (hne e rfl)

theorem ConsoleArgs.err_of_complete {K : Consts} {d : String} {s : ConsoleArgs}
    (h : (s.complete K d).err = "") : s.err = "" := by
  unfold ConsoleArgs.complete at h; split_ifs at h with hc
  · exact hc.1
  · exact h

section
variable {K : Consts} (hK : 2 ≤ K.maxLine) {l : Lex} {α : Type} {k : Kw}
  {value : Tok → String → Except String α}
include hK

/-- A value whose message `err` does not hold was accepted, and the lexer is inside the
line. -/
theorem keyValue_store_mid (hv : ValueTest value) {s : ConsoleArgs} {set : α → ConsoleArgs}
    (he : (s.store K (keyValue l k value).2 set).err = "") : (keyValue l k value).1.Mid := by
  obtain ⟨v, hok⟩ := ConsoleArgs.store_ok hK (fun _ => keyValue_error_ne hv) he
  exact keyValue_ok_mid hv hok

theorem keyValue_store_mid' (hv : ValueTest value) {conf : ServerConfig}
    {set : α → ServerConfig} (he : (conf.store K (keyValue l k value).2 set).2 = "") :
    (keyValue l k value).1.Mid := by
  obtain ⟨v, hok⟩ := ServerConfig.store_ok hK (fun _ => keyValue_error_ne hv) he
  exact keyValue_ok_mid hv hok

end

section
variable {K : Consts} {io : LogOpens} {l : Lex} {s : ConsoleArgs}

theorem consoleOption_extend (h : l.Open) (more : List Token) :
    consoleOption K (l.extend more) s =
      ((consoleOption K l s).1.extend more, (consoleOption K l s).2) := by
  unfold consoleOption; rw [Lex.next_extend h]; dsimp only
  split <;> rename_i heq <;> simp only [heq] <;>
    first
    | rfl
    | rw [keyValue_extend (Lex.next_open h (by rw [heq]; decide))]; rfl
    | rw [keyValue_extend (Lex.next_open h (by rw [heq]; decide))]

theorem consoleOption_lineRest (h : l.Mid) : (consoleOption K l s).1.lineRest = l.lineRest := by
  unfold consoleOption; dsimp only
  split <;> rename_i heq <;>
    first
    | exact Lex.next_lineRest h
    | rw [keyValue_lineRest (Lex.next_mid (by rw [heq]; decide) (by rw [heq]; decide)),
        Lex.next_lineRest h]

theorem consoleOption_aligned (h : l.Open) : (consoleOption K l s).1.Aligned := by
  unfold consoleOption; dsimp only
  split <;> rename_i heq <;>
    first
    | exact Lex.next_aligned h
    | exact keyValue_aligned (Lex.next_open h (by rw [heq]; decide))

theorem consoleOption_done (hd : (consoleOption K l s).2.2 = true) :
    ¬(consoleOption K l s).1.Mid := by
  unfold consoleOption at hd ⊢; dsimp only at hd ⊢
  split <;> rename_i heq <;> simp only [heq] at hd <;>
    first | exact absurd hd (by decide) | simp [Lex.Mid, heq]

theorem consoleOption_goes_on (hK : 2 ≤ K.maxLine) (hd : (consoleOption K l s).2.2 = false)
    (he : (consoleOption K l s).2.1.err = "") : (consoleOption K l s).1.Mid := by
  unfold consoleOption at hd he ⊢; dsimp only at hd he ⊢
  split <;> rename_i heq <;> simp only [heq] at hd he <;>
    first
    | exact absurd hd (by decide)
    | exact keyValue_store_mid hK (stringValue_test _) he
    | exact keyValue_store_mid hK (intValue_test _) he
    | exact absurd ((Consts.fit_eq_empty hK).mp he) Msg.unmatchedQuote_ne
    | exact absurd ((Consts.fit_eq_empty hK).mp he) (Msg.unrecognized_ne _)

theorem consolePass_reads (hK : 2 ≤ K.maxLine) : (consolePass K).Reads where
  extend _ _ more h := consoleOption_extend h more
  lineRest _ _ h := consoleOption_lineRest h
  aligned _ _ h := consoleOption_aligned h
  done _ _ hd := consoleOption_done hd
  goes_on _ _ hd he := consoleOption_goes_on hK hd he

theorem parseConsoleDirective_rest_le (conf : ServerConfig) :
    (parseConsoleDirective K io l conf).1.rest.length ≤ l.rest.length := by
  unfold parseConsoleDirective consoleLoop; dsimp only
  split
  · exact Lex.skipLine_rest_le.trans (Pass.loop_rest_le _ _)
  · exact Pass.loop_rest_le _ _

/-- **`parse_console_directive` reads no further than the end of its line.** -/
theorem parseConsoleDirective_extend (hK : 2 ≤ K.maxLine) (h : l.Open) (more : List Token)
    (conf : ServerConfig) :
    parseConsoleDirective K io (l.extend more) conf =
      ((parseConsoleDirective K io l conf).1.extend more, (parseConsoleDirective K io l conf).2) := by
  unfold parseConsoleDirective consoleLoop
  rw [(consolePass_reads hK).loop_extend more l _ h]
  dsimp only
  simp only [Lex.extend_prev, Lex.extend_line]
  split
  · rw [Lex.skipLine_extend ((consolePass_reads hK).loop_aligned l _ h)]
  · rfl

/-- **`parse_console_directive` stops right after the end of its line**, or at the end
of the file: whether the line is accepted, has an error or is incomplete. -/
theorem parseConsoleDirective_rest (hK : 2 ≤ K.maxLine) (h : l.Mid) (conf : ServerConfig) :
    (parseConsoleDirective K io l conf).1.rest = dropLine l.rest := by
  have hp := consolePass_reads (K := K) hK
  rw [← show l.lineRest = dropLine l.rest from if_pos h, ← hp.loop_lineRest l _ h]
  unfold parseConsoleDirective; dsimp only
  split
  · exact Lex.skipLine_rest
  · rename_i he
    exact Lex.rest_of_not_mid (hp.loop_ends l _ (ConsoleArgs.err_of_complete (not_not.mp he)))

end

section
variable {K : Consts} {l : Lex} {st : ServerConfig × String}

theorem serverOption_extend (h : l.Open) (more : List Token) :
    serverOption K (l.extend more) st =
      ((serverOption K l st).1.extend more, (serverOption K l st).2) := by
  unfold serverOption; rw [Lex.next_extend h]; dsimp only
  split <;> rename_i heq <;> simp only [heq] <;>
    first
    | rfl
    | rw [keyValue_extend (Lex.next_open h (by rw [heq]; decide))]
    | rw [Lex.next_extend (Lex.next_open h (by rw [heq]; decide))]

theorem serverOption_lineRest (h : l.Mid) : (serverOption K l st).1.lineRest = l.lineRest := by
  unfold serverOption; dsimp only
  split <;> rename_i heq <;>
    first
    | exact Lex.next_lineRest h
    | rw [keyValue_lineRest (Lex.next_mid (by rw [heq]; decide) (by rw [heq]; decide)),
        Lex.next_lineRest h]
    | rw [Lex.next_lineRest (Lex.next_mid (by rw [heq]; decide) (by rw [heq]; decide)),
        Lex.next_lineRest h]

theorem serverOption_aligned (h : l.Open) : (serverOption K l st).1.Aligned := by
  unfold serverOption; dsimp only
  split <;> rename_i heq <;>
    first
    | exact Lex.next_aligned h
    | exact keyValue_aligned (Lex.next_open h (by rw [heq]; decide))
    | exact Lex.next_aligned (Lex.next_open h (by rw [heq]; decide))

theorem serverOption_done (hd : (serverOption K l st).2.2 = true) :
    ¬(serverOption K l st).1.Mid := by
  unfold serverOption at hd ⊢; dsimp only at hd ⊢
  split <;> rename_i heq <;> simp only [heq] at hd <;>
    first | exact absurd hd (by decide) | simp [Lex.Mid, heq]

theorem serverOption_goes_on (hK : 2 ≤ K.maxLine) (hd : (serverOption K l st).2.2 = false)
    (he : (serverOption K l st).2.1.2 = "") : (serverOption K l st).1.Mid := by
  unfold serverOption at hd he ⊢; dsimp only at hd he ⊢
  split <;> rename_i heq <;> simp only [heq] at hd he <;>
    first
    | exact absurd hd (by decide)
    | exact keyValue_store_mid' hK (onOffValue_test _) he
    | exact keyValue_store_mid' hK (intValue_test _) he
    | exact absurd ((Consts.fit_eq_empty hK).mp he) (Msg.notImplemented_ne _)
    | exact absurd ((Consts.fit_eq_empty hK).mp he) Msg.unmatchedQuote_ne
    | exact absurd ((Consts.fit_eq_empty hK).mp he) (Msg.unrecognized_ne _)

theorem serverPass_reads (hK : 2 ≤ K.maxLine) : (serverPass K).Reads where
  extend _ _ more h := serverOption_extend h more
  lineRest _ _ h := serverOption_lineRest h
  aligned _ _ h := serverOption_aligned h
  done _ _ hd := serverOption_done hd
  goes_on _ _ hd he := serverOption_goes_on hK hd he

theorem parseServerDirective_rest_le (conf : ServerConfig) :
    (parseServerDirective K l conf).1.rest.length ≤ l.rest.length := by
  unfold parseServerDirective serverLoop; dsimp only
  split
  · exact Lex.skipLine_rest_le.trans (Pass.loop_rest_le _ _)
  · exact Pass.loop_rest_le _ _

/-- **`parse_server_directive` reads no further than the end of its line.** -/
theorem parseServerDirective_extend (hK : 2 ≤ K.maxLine) (h : l.Open) (more : List Token)
    (conf : ServerConfig) :
    parseServerDirective K (l.extend more) conf =
      ((parseServerDirective K l conf).1.extend more, (parseServerDirective K l conf).2) := by
  unfold parseServerDirective serverLoop
  rw [(serverPass_reads hK).loop_extend more l _ h]
  dsimp only
  simp only [Lex.extend_line]
  split
  · rw [Lex.skipLine_extend ((serverPass_reads hK).loop_aligned l _ h)]
  · rfl

/-- **`parse_server_directive` stops right after the end of its line**, or at the end of
the file. -/
theorem parseServerDirective_rest (hK : 2 ≤ K.maxLine) (h : l.Mid) (conf : ServerConfig) :
    (parseServerDirective K l conf).1.rest = dropLine l.rest := by
  have hp := serverPass_reads (K := K) hK
  rw [← show l.lineRest = dropLine l.rest from if_pos h, ← hp.loop_lineRest l _ h]
  unfold parseServerDirective serverLoop; dsimp only
  split
  · exact Lex.skipLine_rest
  · rename_i he
    exact Lex.rest_of_not_mid (hp.loop_ends l _ (not_not.mp he))

end

end Conman
