/-
`process_server_conf_file` and `process_server_cmd_line` (`server-conf.c`): the main
loop over the configuration file's tokens, the command line, and the port's
precedence between the two.

The file is read line by line: `confItem_rest` says where each pass of the main loop's
`switch` leaves the lexer (after the end of its line, unless the token read was itself
the end of a line or an unmatched quote), and `confLoop_lines` that the loop over the
whole file is the loop over each of its lines on its own, in order.
-/
import Conman.Directive

namespace Conman

/-! ## `process_server_conf_file` -/

/-- One pass of the `switch (tok)` of `process_server_conf_file` after `lex_next`
answered `tok`: where it leaves the lexer, and the configuration and the lines it prints.
An unmatched quote is reported and the loop goes on with the token after it. Any other
token that starts no directive is reported and the rest of its line skipped by
`while (tok != LEX_EOL && tok != LEX_EOF) tok = lex_next(l);`, whose `tok` is what
`lex_prev` answers. -/
def confItem (K : Consts) (io : LogOpens) (l : Lex) (tok : Tok) (conf : ServerConfig) :
    Lex × Except Fault (ServerConfig × List Printed) :=
  match tok with
  | .kw .console => parseConsoleDirective K io l conf
  | .kw .server =>
    let r := parseServerDirective K l conf
    (r.1, pure r.2)
  | .eol => (l, pure (conf, []))
  | .err => (l, pure (conf, [⟨.stdout, Msg.errorLine conf.filename l.line Msg.unmatchedQuote⟩]))
  | _ => (l.skipLine,
    pure (conf, [⟨.stdout, Msg.errorLine conf.filename l.line (Msg.unrecognized l.text)⟩]))

theorem confItem_rest_le {K : Consts} {io : LogOpens} {l : Lex} {tok : Tok} {conf : ServerConfig} :
    (confItem K io l tok conf).1.rest.length ≤ l.rest.length := by
  unfold confItem
  split
  · exact parseConsoleDirective_rest_le conf
  · exact parseServerDirective_rest_le conf
  all_goals first | exact le_rfl | exact Lex.skipLine_rest_le

/-- `while ((tok = lex_next(l)) != LEX_EOF) { switch (tok) { ... } }`: the configuration
and the lines printed. -/
def confLoop (K : Consts) (io : LogOpens) (l : Lex) (conf : ServerConfig) :
    Except Fault (ServerConfig × List Printed) :=
  let a := l.next
  if a.1 = .eof then pure (conf, []) else
  let r := confItem K io a.2 a.1 conf
  do
    let x ← r.2
    let y ← confLoop K io r.1 x.1
    pure (y.1, x.2 ++ y.2)
termination_by l.rest.length
decreasing_by exact confItem_rest_le.trans_lt (Lex.next_rest_lt ‹_›)

/-- `process_server_conf_file(conf)` once the file is read: `ts` are its tokens. Opening,
locking, reading it and creating the lexer either succeed or end the process through
`err_msg`, and are left out. The port the command line set is saved before the loop
and restored after it; a port still unset then takes `DEFAULT_CONMAN_PORT`. `io` answers
the opens of the logfiles the file creates. -/
def processServerConfFile (K : Consts) (io : LogOpens) (ts : List Token) (conf : ServerConfig) :
    Except Fault (ServerConfig × List Printed) := do
  let port := conf.port
  let r ← confLoop K io (Lex.create ts) conf
  let conf := r.1
  let conf :=
    if 0 < port then { conf with port := port }
    else if conf.port ≤ 0 then { conf with port := K.defaultConmanPort }
    else conf
  pure (conf, r.2)

/-! ## `process_server_cmd_line` -/

/-- What `getopt(argc, argv, "c:hkp:vVz")` hands the loop, in order: a letter of the
option string, with its argument for `c` and `p`, or `'?'` with `optopt` for an option
not in the string or missing its argument. -/
inductive Opt where
  | c (arg : String)
  | h
  | k
  | p (arg : String)
  | v
  | V
  | z
  | invalid (optopt : Char)
deriving DecidableEq, Repr

/-- How `process_server_cmd_line` ends the process instead of returning: `exit(0)` after
the help or the version, `exit(1)` on an invalid option, and for `-k` the call of
`kill_daemon` on the configuration, which never returns (`killDaemon`). -/
inductive CmdExit where
  | help
  | version
  | kill (conf : ServerConfig)
  | invalid (optopt : Char)

/-- `"WARNING: Ignoring invalid port \"%d\".\n"`. -/
def Msg.invalidPort (n : Int) : String := "WARNING: Ignoring invalid port \"" ++ toString n ++ "\"."

/-- The `getopt` loop: `killDaemon`, the configuration, and the warnings printed. The
`default` case cannot be reached, as `getopt` answers only letters of its string or
`'?'`. -/
def cmdLoop : List Opt → Bool → ServerConfig → List String →
    Except CmdExit (Bool × ServerConfig × List String)
  | [], kill, conf, w => pure (kill, conf, w)
  | .c arg :: os, kill, conf, w => cmdLoop os kill { conf with filename := arg } w
  | .h :: _, _, _, _ => throw .help
  | .k :: os, _, conf, w => cmdLoop os true conf w
  | .p arg :: os, kill, conf, w =>
    if atoi arg ≤ 0 then cmdLoop os kill conf (w ++ [Msg.invalidPort (atoi arg)])
    else cmdLoop os kill { conf with port := atoi arg } w
  | .v :: os, kill, conf, w => cmdLoop os kill { conf with enableVerbose := true } w
  | .V :: _, _, _, _ => throw .version
  | .z :: os, kill, conf, w => cmdLoop os kill { conf with enableZeroLogs := true } w
  | .invalid c :: _, _, _, _ => throw (.invalid c)

/-- `process_server_cmd_line(argc, argv, conf)`: `kill_daemon(conf)` when `-k` was given,
otherwise the configuration and the warnings, which `fprintf(stderr, ...)` prints. -/
def processServerCmdLine (opts : List Opt) (conf : ServerConfig) :
    Except CmdExit (ServerConfig × List String) := do
  let r ← cmdLoop opts false conf []
  if r.1 then throw (.kill r.2.1) else pure r.2

/-! ## `kill_daemon` -/

section
variable {K : Consts} (io : LogOpens) (hK : 2 ≤ K.maxLine)
include hK

/-- A pass of the `switch` reads no further than the end of its line. -/
theorem confItem_extend {l : Lex} (h : l.Aligned) (more : List Token) (conf : ServerConfig) :
    confItem K io (l.extend more) l.prev conf =
      ((confItem K io l l.prev conf).1.extend more, (confItem K io l l.prev conf).2) := by
  unfold confItem
  split <;> rename_i hp
  · exact parseConsoleDirective_extend hK (h (by simp [Lex.Mid, hp])) more conf
  · simp only [parseServerDirective_extend hK (h (by simp [Lex.Mid, hp])) more conf]
  · rfl
  · rfl
  · rw [Lex.skipLine_extend h]; rfl

/-- **Where a pass of the `switch` leaves the lexer**: right after the end of the line,
or at the end of the file, except after an end of line or an unmatched quote, where it
reads nothing. -/
theorem confItem_rest (l : Lex) (conf : ServerConfig) :
    (confItem K io l l.prev conf).1.rest =
      if l.prev = .eol ∨ l.prev = .err ∨ l.prev = .eof then l.rest else dropLine l.rest := by
  have hmid : l.prev ≠ .eol → l.prev ≠ .eof → l.Mid := fun h1 h2 => ⟨h1, h2⟩
  unfold confItem
  split <;> rename_i hp
  · rw [parseConsoleDirective_rest hK (hmid (by rw [hp]; decide) (by rw [hp]; decide)), hp]; rfl
  · rw [parseServerDirective_rest hK (hmid (by rw [hp]; decide) (by rw [hp]; decide)), hp]; rfl
  · simp [hp]
  · simp [hp]
  · rw [Lex.skipLine_rest, Lex.lineRest]
    split_ifs <;> simp_all [Lex.Mid]

end

/-! ## The file is read line by line -/

/-- Parsing `line` as a file of its own, after the configuration and the lines printed so
far. -/
def parseLine (K : Consts) (io : LogOpens) (acc : ServerConfig × List Printed) (line : List Token) :
    Except Fault (ServerConfig × List Printed) := do
  let y ← confLoop K io (Lex.create line) acc.1
  pure (y.1, acc.2 ++ y.2)

/-- The file's lines, each up to and including its end of line, then the tokens after the
last end of line if there are any; `cur` is the part of the line read so far. -/
def splitLines (cur : List Token) : List Token → List (List Token)
  | [] => if cur.isEmpty then [] else [cur]
  | t :: ts => if t.tok = .eol then (cur ++ [t]) :: splitLines [] ts else splitLines (cur ++ [t]) ts

section
variable {K : Consts} {io : LogOpens}

theorem confLoop_eq {l : Lex} {conf : ServerConfig} :
    confLoop K io l conf =
      if (l.next).1 = .eof then pure (conf, []) else
      (confItem K io (l.next).2 (l.next).1 conf).2 >>= fun x =>
        confLoop K io (confItem K io (l.next).2 (l.next).1 conf).1 x.1 >>= fun y =>
          pure (y.1, x.2 ++ y.2) := by
  rw [confLoop]

/-- The loop reads the lexer's tokens only: what `lex_prev` and the rest answer before the
first `lex_next` do not matter. -/
theorem confLoop_congr {l l' : Lex} (h : l.rest = l'.rest) (conf : ServerConfig) :
    confLoop K io l conf = confLoop K io l' conf := by
  by_cases hn : l.rest = []
  · have h1 : (l.next).1 = .eof := Lex.next_eof_iff.mpr hn
    have h2 : (l'.next).1 = .eof := Lex.next_eof_iff.mpr (h ▸ hn)
    rw [confLoop_eq, confLoop_eq, if_pos h1, if_pos h2]
  · rw [confLoop_eq, confLoop_eq, Lex.next_eq_of_rest h hn]

theorem confLoop_nil {l : Lex} (h : l.rest = []) (conf : ServerConfig) :
    confLoop K io l conf = pure (conf, []) := by
  rw [confLoop_eq, if_pos (Lex.next_eof_iff.mpr h)]

theorem parseLine_of_nil {l : Lex} (h : l.rest = []) (more : List Token)
    (conf : ServerConfig) (d : List Printed) :
    confLoop K io (l.extend more) conf >>= (fun y => pure (y.1, d ++ y.2)) =
      parseLine K io (conf, d) more := by
  rw [confLoop_congr (by simp [h, Lex.create] : (l.extend more).rest = (Lex.create more).rest)]
  rfl

/-- **The loop over a last line and what follows it** is the loop over the line, then
over what follows. -/
theorem confLoop_extend (hK : 2 ≤ K.maxLine) (more : List Token) (l : Lex) (hl : l.OneLine)
    (conf : ServerConfig) :
    confLoop K io (l.extend more) conf = confLoop K io l conf >>= fun r => parseLine K io r more := by
  have ho := Lex.oneLine_open hl
  rw [confLoop_eq, confLoop_eq (l := l), Lex.next_extend ho]
  rcases Lex.next_oneLine hl with ⟨he, hr⟩ | ⟨he, hf, hl'⟩
  · -- the line's end: nothing is left of the line
    rw [if_neg (by rw [he]; decide), if_neg (by rw [he]; decide)]
    simp only [he, confItem, pure_bind, confLoop_nil hr, List.nil_append]
    rw [← parseLine_of_nil hr more conf []]; rfl
  · rw [if_neg hf, if_neg hf]
    have hal : (l.next).2.Aligned := Lex.next_aligned ho
    have hp : (l.next).2.prev = (l.next).1 := Lex.next_prev
    rw [← hp, confItem_extend io hK hal, bind_assoc]
    congr 1; funext x
    have hrest := confItem_rest io hK (l.next).2 x.1
    by_cases hq : (l.next).1 = .err
    · -- an unmatched quote: the loop goes on in the same line
      have hi : (confItem K io (l.next).2 (l.next).2.prev conf).1 = (l.next).2 := by
        simp only [hp, hq, confItem]
      rw [hi, confLoop_extend hK more (l.next).2 hl' x.1]
      simp only [parseLine, bind_assoc, pure_bind, List.append_assoc]
    · -- a directive or a skipped line: the pass read to the line's end
      have hnil : (confItem K io (l.next).2 (l.next).2.prev conf).1.rest = [] := by
        rw [confItem_rest io hK, if_neg (by rw [hp]; rintro (h | h | h) <;> contradiction)]
        exact hl'.dropLine_eq
      rw [confLoop_nil hnil, pure_bind, parseLine_of_nil hnil]
      simp only [parseLine, pure_bind, List.append_nil]
termination_by l.rest.length
decreasing_by exact Lex.next_rest_lt hf

end

section
variable {K : Consts} (io : LogOpens) (hK : 2 ≤ K.maxLine)
include hK

/-- A file that starts with a whole line is read as that line, then the rest. -/
theorem parseLine_append {cur : List Token} (hcur : ∀ t ∈ cur, t.tok ≠ .eol) {e : Token}
    (he : e.tok = .eol) (more : List Token) (acc : ServerConfig × List Printed) :
    parseLine K io acc (cur ++ e :: more) =
      parseLine K io acc (cur ++ [e]) >>= fun acc' => parseLine K io acc' more := by
  have hl : (Lex.create (cur ++ [e])).OneLine := ⟨cur, e, rfl, he, hcur⟩
  unfold parseLine
  rw [@confLoop_congr K io (Lex.create (cur ++ e :: more)) ((Lex.create (cur ++ [e])).extend more)
      (by simp [Lex.create]), confLoop_extend hK more _ hl]
  simp only [parseLine, bind_assoc, pure_bind, List.append_assoc]

/-- The file split at its ends of line, when `cur` is the start of its first line. -/
theorem parseLine_splitLines :
    ∀ (ts cur : List Token), (∀ t ∈ cur, t.tok ≠ .eol) → ∀ acc : ServerConfig × List Printed,
      parseLine K io acc (cur ++ ts) = (splitLines cur ts).foldlM (parseLine K io) acc
  | [], [], _, acc => by
    simp [splitLines, parseLine, confLoop_nil (rfl : (Lex.create []).rest = [])]
  | [], c :: cs, _, acc => by simp [splitLines]
  | t :: ts, cur, hcur, acc => by
    by_cases ht : t.tok = .eol
    · rw [splitLines, if_pos ht, List.foldlM_cons, parseLine_append io hK hcur ht]
      simp only [← parseLine_splitLines ts [] (by simp), List.nil_append]
    · have hcur' : ∀ t' ∈ cur ++ [t], t'.tok ≠ .eol := by
        simpa [or_imp, forall_and] using ⟨hcur, ht⟩
      rw [splitLines, if_neg ht, ← parseLine_splitLines ts _ hcur', List.append_assoc]
      rfl

/-- **The configuration file is read line by line.** Each pass of the main loop's
`switch` that starts a directive or skips a token leaves the lexer right after the end of
its line (or at the end of the file); and the loop over the whole file is the loop over
each of its lines on its own, left to right, each line starting from the configuration the
lines before it left. -/
theorem conf_file_read_by_lines :
    (∀ (l : Lex) (conf : ServerConfig), (confItem K io l l.prev conf).1.rest =
      if l.prev = .eol ∨ l.prev = .err ∨ l.prev = .eof then l.rest else dropLine l.rest) ∧
    ∀ (ts : List Token) (conf : ServerConfig),
      confLoop K io (Lex.create ts) conf = (splitLines [] ts).foldlM (parseLine K io) (conf, []) :=
  ⟨confItem_rest io hK, fun ts conf => by
    rw [← parseLine_splitLines io hK ts [] (by simp)]
    simp [parseLine]⟩

end

theorem sample_conf_file_read_by_lines :
    2 ≤ Consts.sample.maxLine ∧
    (∀ (l : Lex) (conf : ServerConfig), (confItem Consts.sample LogOpens.sample l l.prev conf).1.rest =
      if l.prev = .eol ∨ l.prev = .err ∨ l.prev = .eof then l.rest else dropLine l.rest) ∧
    ∀ (ts : List Token) (conf : ServerConfig),
      confLoop Consts.sample LogOpens.sample (Lex.create ts) conf =
        (splitLines [] ts).foldlM (parseLine Consts.sample LogOpens.sample) (conf, []) :=
  ⟨by decide, conf_file_read_by_lines LogOpens.sample (by decide)⟩

end Conman
