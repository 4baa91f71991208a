/-
What a configuration file and the command line set, as the spec reads them, and that the
loops of `server-conf.c` do just that.

The main loop of `process_server_conf_file` reads a file as a list of directives
(`fileDirectives`): a `SERVER` line with its well-formed options, a `CONSOLE` line with the
console it asks for, and a report for an unmatched quote or a token that starts no
directive. `confLoop_reads` says that the loop's configuration is these directives applied
in order, with one diagnostic for each one that is reported, and that no assertion of
`create_console_obj` or `create_obj_link` fails on any file; each diagnostic is an
`ERROR:` line naming the file, on stderr when a directive prints it and on stdout when the
main loop does (`processServerConfFile_diagnostics`). `processServerCmdLine_eq` reads the
command line as the help text describes it, `server_port_precedence` gives the port the
server ends with after the command line and the file, and `startup_wellFormed` the object
graph it starts with.
-/
import Conman.ConfFile
import Conman.Options
import Conman.Symmetry

namespace Conman

/-! ## Lines -/

/-- The tokens of a line before its end of line. -/
def takeLine : List Token → List Token
  | [] => []
  | t :: ts => if t.tok = .eol then [] else t :: takeLine ts

theorem takeLine_spec : ∀ ts : List Token, (∀ t ∈ takeLine ts, t.tok ≠ .eol) ∧
    ∃ rest, ts = takeLine ts ++ rest ∧ (∀ t ∈ rest.head?, t.tok = .eol) ∧ dropLine ts = rest.tail
  | [] => ⟨by simp [takeLine], [], rfl, by simp, rfl⟩
  | t :: ts => by
    by_cases ht : t.tok = .eol
    · exact ⟨by simp [takeLine, ht], t :: ts, by simp [takeLine, ht], by simp [ht],
        by simp [dropLine, ht]⟩
    · obtain ⟨h1, rest, h2, h3, h4⟩ := takeLine_spec ts
      refine ⟨by simpa [takeLine, ht] using h1, rest, ?_, h3, by simp [dropLine, ht, h4]⟩
      rw [takeLine, if_neg ht, List.cons_append, ← h2]

theorem length_dropLine_le : ∀ ts : List Token, (dropLine ts).length ≤ ts.length
  | [] => le_rfl
  | t :: ts => by
    by_cases ht : t.tok = .eol
    · simp [dropLine, ht]
    · simpa [dropLine, ht] using Nat.le_succ_of_le (length_dropLine_le ts)

/-! ## The file as directives -/

/-- What a pass of the main loop reads, as the spec states it. -/
inductive Directive where
  /-- A `SERVER` line: its well-formed options, and whether something else follows them. -/
  | server (os : List ServerOpt) (bad : Bool)
  /-- A `CONSOLE` line, with the console it asks for if it asks for one. -/
  | console (c : Option ConsoleSpec)
  | unmatchedQuote
  | unrecognized

/-- What a directive sets, the logfiles it creates opened as `io` answers. -/
def Directive.apply (K : Consts) (io : LogOpens) (conf : ServerConfig) : Directive → ServerConfig
  | .server os _ => os.foldl ServerConfig.apply conf
  | .console c => conf.addConsole K io c
  | .unmatchedQuote | .unrecognized => conf

/-- Whether a directive is reported. -/
def Directive.reported : Directive → Bool
  | .server _ bad => bad
  | .console c => c.isNone
  | .unmatchedQuote | .unrecognized => true

/-- Where a reported directive's line goes: the directives print it with
`fprintf(stderr, ...)`, the main loop with `printf`. -/
def Directive.stream : Directive → Stdio
  | .server .. | .console _ => .stderr
  | .unmatchedQuote | .unrecognized => .stdout

/-- The directive a pass of the main loop reads after `tok`, followed by `ts`, and the
tokens it leaves. -/
def readItem (K : Consts) (tok : Tok) (ts : List Token) : Option Directive × List Token :=
  match tok with
  | .kw .console => (some (.console (ConsoleSpec.ofLine K (takeLine ts))), dropLine ts)
  | .kw .server => (some (.server (serverOpts (takeLine ts)).1 (serverOpts (takeLine ts)).2),
      dropLine ts)
  | .eol => (none, ts)
  | .err => (some .unmatchedQuote, ts)
  | _ => (some .unrecognized, dropLine ts)

theorem readItem_rest (K : Consts) (tok : Tok) (ts : List Token) :
    (readItem K tok ts).2 = if tok = .eol ∨ tok = .err then ts else dropLine ts := by
  unfold readItem; split <;> simp_all

theorem readItem_rest_le (K : Consts) (tok : Tok) (ts : List Token) :
    (readItem K tok ts).2.length ≤ ts.length := by
  rw [readItem_rest]; split
  · exact le_rfl
  · exact length_dropLine_le ts

/-- The directives of a file, read as the main loop reads them. -/
def fileDirectives (K : Consts) : List Token → List Directive
  | [] => []
  | t :: ts => (readItem K t.tok ts).1.toList ++ fileDirectives K (readItem K t.tok ts).2
termination_by ts => ts.length
decreasing_by exact Nat.lt_succ_of_le (readItem_rest_le K t.tok ts)

theorem fileDirectives_cons (K : Consts) (t : Token) (ts : List Token) :
    fileDirectives K (t :: ts) =
      (readItem K t.tok ts).1.toList ++ fileDirectives K (readItem K t.tok ts).2 := by
  rw [fileDirectives]

/-! ## What the main loop prints -/

/-- A line reading `ERROR: <file>:<line>: <reason>.` with a reason. -/
def Diagnostic (file : String) (m : Printed) : Prop :=
  ∃ line err, err ≠ "" ∧ m.text = Msg.errorLine file line err

theorem registerConsole_filename {K : Consts} {io : LogOpens} {conf conf' : ServerConfig}
    {name dev log : String} {bps : Int} (h : registerConsole K io conf name dev log bps = .ok conf') :
    conf'.filename = conf.filename := by
  simp only [registerConsole, bind_eq_ok] at h
  obtain ⟨_, -, h⟩ := h
  split at h
  · cases h; rfl
  · obtain ⟨_, -, h⟩ := bind_eq_ok.mp h
    cases h; rfl

theorem foldl_apply_filename : ∀ (os : List ServerOpt) (conf : ServerConfig),
    (os.foldl ServerConfig.apply conf).filename = conf.filename
  | [], _ => rfl
  | o :: os, conf => by rw [List.foldl_cons, foldl_apply_filename os]; cases o <;> rfl

/-! ## The main loop reads the file's directives -/

section
variable {K : Consts} (io : LogOpens) (hK : 2 ≤ K.maxLine)
include hK

theorem parseConsoleDirective_addConsole (l : Lex) (conf : ServerConfig) :
    ∃ d, (parseConsoleDirective K io l conf).2 =
      .ok (conf.addConsole K io (ConsoleSpec.ofLine K (takeLine l.rest)), d) ∧
      d.map Printed.stream =
        if (ConsoleSpec.ofLine K (takeLine l.rest)).isNone then [.stderr] else [] := by
  obtain ⟨hcur, rest, hl, hrest, -⟩ := takeLine_spec l.rest
  have h := parseConsoleDirective_ofLine hK io l conf _ rest hcur hrest hl
  have hs : ∀ {d : Printed} {c : ServerConfig}, (parseConsoleDirective K io l conf).2 = .ok (c, [d]) →
      d.stream = .stderr := fun hd => by
    revert hd; unfold parseConsoleDirective; dsimp only
    split
    · intro hd; cases hd; rfl
    · intro hd; obtain ⟨_, -, h⟩ := map_eq_ok.mp hd; cases h
  revert h
  cases ConsoleSpec.ofLine K (takeLine l.rest) with
  | none => rintro ⟨d, hd⟩; exact ⟨[d], hd, by simp [hs hd]⟩
  | some c => intro hd; exact ⟨[], hd, rfl⟩

theorem parseServerDirective_takeLine (l : Lex) (conf : ServerConfig) :
    (parseServerDirective K l conf).2.1 =
        (serverOpts (takeLine l.rest)).1.foldl ServerConfig.apply conf ∧
      (parseServerDirective K l conf).2.2.map Printed.stream =
        if (serverOpts (takeLine l.rest)).2 then [.stderr] else [] := by
  obtain ⟨hcur, rest, hl, hrest, -⟩ := takeLine_spec l.rest
  obtain ⟨h1, h2⟩ := serverLoop_opts hK _ rest l conf hcur hrest hl
  unfold parseServerDirective serverLoop; dsimp only
  split <;> rename_i he
  · simp [h1, h2.mp he]
  · simp [h1, (not_congr h2).mp he]

/-- One pass of the main loop reads one directive, or none after an end of line. -/
theorem confItem_readItem (l : Lex) (hp : l.prev ≠ .eof) (conf : ServerConfig) :
    (confItem K io l l.prev conf).1.rest = (readItem K l.prev l.rest).2 ∧
    ∃ d, (confItem K io l l.prev conf).2 =
        .ok ((readItem K l.prev l.rest).1.toList.foldl (Directive.apply K io) conf, d) ∧
      d.map Printed.stream =
        ((readItem K l.prev l.rest).1.toList.filter Directive.reported).map Directive.stream := by
  refine ⟨by rw [confItem_rest io hK, readItem_rest]; simp [hp], ?_⟩
  unfold confItem
  split <;> rename_i hq
  · obtain ⟨d, hd, hlen⟩ := parseConsoleDirective_addConsole io hK l conf
    simp only [hq, readItem]
    refine ⟨d, hd, ?_⟩
    cases h : ConsoleSpec.ofLine K (takeLine l.rest) <;> simp_all [Directive.reported, Directive.stream]
  · obtain ⟨h1, h2⟩ := parseServerDirective_takeLine hK l conf
    simp only [hq, readItem]
    refine ⟨(parseServerDirective K l conf).2.2, by
      simp only [Option.toList, List.foldl, Directive.apply, ← h1]; rfl, ?_⟩
    rw [h2]; cases (serverOpts (takeLine l.rest)).2 <;> rfl
  · simp only [hq, readItem]; exact ⟨[], rfl, rfl⟩
  · simp only [hq, readItem]; exact ⟨_, rfl, rfl⟩
  · have hr : (readItem K l.prev l.rest).1 = some .unrecognized := by
      unfold readItem; split <;> simp_all
    rw [hr]; exact ⟨_, rfl, rfl⟩

/-- **The main loop of `process_server_conf_file` over any file** sets what the file's
directives set, applied in order, and prints one diagnostic for each directive that is
reported, on the stream it goes to. In particular no assertion of `create_console_obj` or
`create_obj_link` fails. -/
theorem confLoop_reads : ∀ (ts : List Token) (l : Lex) (conf : ServerConfig), l.rest = ts →
    ∃ d, confLoop K io l conf = .ok ((fileDirectives K ts).foldl (Directive.apply K io) conf, d) ∧
      d.map Printed.stream = ((fileDirectives K ts).filter Directive.reported).map Directive.stream
  | [], l, conf, hl => ⟨[], by rw [confLoop_nil hl, fileDirectives]; rfl, by
      rw [fileDirectives]; rfl⟩
  | t :: ts, l, conf, hl => by
    have hnext : l.next = (t.tok, ⟨ts, t.tok, t.text, t.line⟩) := by simp [Lex.next, hl]
    obtain ⟨hrest, d, hd, hlen⟩ := confItem_readItem io hK ⟨ts, t.tok, t.text, t.line⟩ t.not_eof
      conf
    dsimp only at hrest hd hlen
    obtain ⟨d', hd', hlen'⟩ := confLoop_reads (readItem K t.tok ts).2 _
      ((readItem K t.tok ts).1.toList.foldl (Directive.apply K io) conf) hrest
    rw [confLoop_eq, hnext, if_neg t.not_eof, fileDirectives_cons]
    refine ⟨d ++ d', ?_, ?_⟩
    · simp only [hd, bind, Except.bind, hd', List.foldl_append]; rfl
    · simp [hlen, hlen', List.filter_append, List.map_append]
termination_by ts => ts.length
decreasing_by exact Nat.lt_succ_of_le (readItem_rest_le K t.tok ts)

/-- A pass of the main loop keeps the file's name and prints only diagnostics. -/
theorem confItem_diagnostics (l : Lex) (tok : Tok) (conf : ServerConfig)
    {r : ServerConfig × List Printed} (h : (confItem K io l tok conf).2 = .ok r) :
    r.1.filename = conf.filename ∧ ∀ m ∈ r.2, Diagnostic conf.filename m := by
  unfold confItem at h
  split at h
  · unfold parseConsoleDirective at h
    dsimp only at h
    split at h
    · cases h; exact ⟨rfl, fun m hm => ⟨_, _, ‹_›, congrArg Printed.text (List.mem_singleton.mp hm)⟩⟩
    · obtain ⟨conf', hc, rfl⟩ := map_eq_ok.mp h
      exact ⟨registerConsole_filename hc, fun _ hm => nomatch hm⟩
  · cases h
    have hf : (parseServerDirective K l conf).2.1.filename = conf.filename := by
      rw [(parseServerDirective_takeLine hK l conf).1, foldl_apply_filename]
    refine ⟨hf, fun m hm => ?_⟩
    revert hf hm
    unfold parseServerDirective; dsimp only
    split
    · intro hf hm; exact ⟨_, _, ‹_›, hf ▸ congrArg Printed.text (List.mem_singleton.mp hm)⟩
    · intro _ hm; exact nomatch hm
  · cases h; exact ⟨rfl, fun _ hm => nomatch hm⟩
  · cases h
    exact ⟨rfl, fun m hm => ⟨_, _, Msg.unmatchedQuote_ne, congrArg Printed.text (List.mem_singleton.mp hm)⟩⟩
  · cases h
    exact ⟨rfl, fun m hm => ⟨_, _, Msg.unrecognized_ne _, congrArg Printed.text (List.mem_singleton.mp hm)⟩⟩

/-- The main loop keeps the file's name and prints only diagnostics. -/
theorem confLoop_diagnostics : ∀ (ts : List Token) (l : Lex) (conf : ServerConfig), l.rest = ts →
    ∀ r, confLoop K io l conf = .ok r →
      r.1.filename = conf.filename ∧ ∀ m ∈ r.2, Diagnostic conf.filename m
  | [], l, conf, hl, r, h => by
    rw [confLoop_nil hl] at h; cases h; exact ⟨rfl, fun _ hm => nomatch hm⟩
  | t :: ts, l, conf, hl, r, h => by
    have hnext : l.next = (t.tok, ⟨ts, t.tok, t.text, t.line⟩) := by simp [Lex.next, hl]
    rw [confLoop_eq, hnext, if_neg t.not_eof] at h
    obtain ⟨x, hx, y, hy, h⟩ := bind_eq_ok.mp h |>.imp fun _ => And.imp_right bind_eq_ok.mp
    cases h
    obtain ⟨hf1, hm1⟩ := confItem_diagnostics io hK _ _ _ hx
    obtain ⟨hf2, hm2⟩ := confLoop_diagnostics _ _ _
      (confItem_readItem io hK ⟨ts, t.tok, t.text, t.line⟩ t.not_eof conf).1 y hy
    refine ⟨hf2.trans hf1, fun m hm => ?_⟩
    rcases List.mem_append.mp hm with hm | hm
    · exact hm1 m hm
    · exact hf1 ▸ hm2 m hm
termination_by ts => ts.length
decreasing_by exact Nat.lt_succ_of_le (readItem_rest_le K t.tok ts)

end

/-! ## The port -/

/-- The port a `SERVER` option sets, if it sets one. -/
def ServerOpt.port? : ServerOpt → Option Int
  | .port n => some n
  | _ => none

/-- The ports a directive sets, in order. -/
def Directive.ports : Directive → List Int
  | .server os _ => os.flatMap fun o => o.port?.toList
  | _ => []

/-- The ports the `PORT` options of a file set, in the order the main loop reaches them. -/
def filePorts (K : Consts) (ts : List Token) : List Int :=
  (fileDirectives K ts).flatMap Directive.ports

/-- The values of the `-p` options that are positive, in order. -/
def cmdPorts : List Opt → List Int
  | [] => []
  | .p arg :: os => if 0 < atoi arg then atoi arg :: cmdPorts os else cmdPorts os
  | _ :: os => cmdPorts os

/-- The port of the spec's precedence: the last valid `-p`, else the last `PORT` that the
file sets, else `DEFAULT_CONMAN_PORT`. -/
def specPort (K : Consts) (opts : List Opt) (ts : List Token) : Int :=
  ((cmdPorts opts).getLast?.or (filePorts K ts).getLast?).getD K.defaultConmanPort

theorem getLast?_getD_append {α : Type} (xs ys : List α) (a : α) :
    (xs ++ ys).getLast?.getD a = ys.getLast?.getD (xs.getLast?.getD a) := by
  rw [List.getLast?_append]; cases ys.getLast? <;> rfl

/-- A fold of steps that each set the port to the last of their ports, if they have any,
sets it to the last port of them all. -/
theorem foldl_port {α : Type} {f : ServerConfig → α → ServerConfig} {g : α → List Int}
    (hf : ∀ c x, (f c x).port = (g x).getLast?.getD c.port) :
    ∀ (xs : List α) (c : ServerConfig), (xs.foldl f c).port = (xs.flatMap g).getLast?.getD c.port
  | [], _ => rfl
  | x :: xs, c => by
    rw [List.foldl_cons, foldl_port hf xs, hf, List.flatMap_cons, getLast?_getD_append]

theorem Directive.apply_port (K : Consts) (io : LogOpens) (conf : ServerConfig) (d : Directive) :
    (d.apply K io conf).port = d.ports.getLast?.getD conf.port := by
  match d with
  | .server os _ => exact foldl_port (fun c o => by cases o <;> rfl) os conf
  | .console none | .unmatchedQuote | .unrecognized => rfl
  | .console (some c) =>
    simp only [Directive.apply, ServerConfig.addConsole, ServerConfig.withConsole]
    split_ifs <;> rfl

theorem serverOpt_port_pos {k e v : Token} {o : ServerOpt} {n : Int}
    (ho : serverOpt k e v = some o) (hn : o.port? = some n) : 0 < n := by
  unfold serverOpt at ho
  split_ifs at ho
  split at ho
  · obtain ⟨b, -, rfl⟩ := Option.map_eq_some'.mp ho; cases hn
  · obtain ⟨b, -, rfl⟩ := Option.map_eq_some'.mp ho; cases hn
  · obtain ⟨x, hx, rfl⟩ := Option.map_eq_some'.mp ho
    cases hn
    unfold posInt? at hx; split_ifs at hx with hp
    cases hx; exact hp.2
  · cases ho

theorem serverOpts_port_pos : ∀ (cur : List Token),
    ∀ o ∈ (serverOpts cur).1, ∀ n, o.port? = some n → 0 < n
  | [] | [_] | [_, _] => by simp [serverOpts]
  | k :: e :: v :: rest => by
    unfold serverOpts
    split
    · rename_i o ho
      rintro o' (_ | ⟨_, h⟩)
      · exact fun n => serverOpt_port_pos ho
      · exact serverOpts_port_pos rest o' h
    · simp

theorem filePorts_pos (K : Consts) : ∀ (ts : List Token), ∀ n ∈ filePorts K ts, 0 < n
  | [] => by simp [filePorts, fileDirectives]
  | t :: ts => by
    intro n hn
    rw [filePorts, fileDirectives_cons, List.flatMap_append] at hn
    rcases List.mem_append.mp hn with h | h
    · unfold readItem at h
      split at h <;> simp only [Option.toList, List.flatMap_cons, List.flatMap_nil,
        List.append_nil, Directive.ports, List.not_mem_nil] at h
      obtain ⟨o, ho, hn⟩ := List.mem_flatMap.mp h
      exact serverOpts_port_pos _ o ho n (Option.mem_toList.mp hn)
    · exact filePorts_pos K (readItem K t.tok ts).2 n h
termination_by ts => ts.length
decreasing_by exact Nat.lt_succ_of_le (readItem_rest_le K t.tok ts)

theorem cmdPorts_pos : ∀ (opts : List Opt), ∀ n ∈ cmdPorts opts, 0 < n
  | [] => by simp [cmdPorts]
  | .p arg :: os => by
    unfold cmdPorts
    split_ifs with h
    · simpa [h] using cmdPorts_pos os
    · exact cmdPorts_pos os
  | .c _ :: os | .h :: os | .k :: os | .v :: os | .V :: os | .z :: os | .invalid _ :: os =>
    cmdPorts_pos os

/-! ## The command line -/

/-- The exit an option asks for: `-h`, `-V` and an option not in the string end the
process at once. -/
def Opt.exit? : Opt → Option CmdExit
  | .h => some .help
  | .V => some .version
  | .invalid ch => some (.invalid ch)
  | _ => none

/-- The argument of a `-c`. -/
def Opt.file? : Opt → Option String
  | .c arg => some arg
  | _ => none

/-- The warning a `-p` whose value is not positive prints. -/
def Opt.warning? : Opt → Option String
  | .p arg => if atoi arg ≤ 0 then some (Msg.invalidPort (atoi arg)) else none
  | _ => none

/-- What the options set, as the help text describes them: the last `-c` and the last
valid `-p` win, and `-v` and `-z` turn their flags on. -/
def cmdSettings (opts : List Opt) (conf : ServerConfig) : ServerConfig :=
  { conf with
    filename := (opts.filterMap Opt.file?).getLast?.getD conf.filename
    port := (cmdPorts opts).getLast?.getD conf.port
    enableVerbose := conf.enableVerbose || opts.contains .v
    enableZeroLogs := conf.enableZeroLogs || opts.contains .z }

theorem cmdLoop_eq : ∀ (opts : List Opt) (kill : Bool) (conf : ServerConfig) (w : List String),
    cmdLoop opts kill conf w =
      match opts.findSome? Opt.exit? with
      | some e => .error e
      | none => .ok (kill || opts.contains .k, cmdSettings opts conf,
          w ++ opts.filterMap Opt.warning?)
  | [], kill, conf, w => by simp [cmdLoop, cmdSettings, cmdPorts, pure, Except.pure]
  | .h :: _, _, _, _ | .V :: _, _, _, _ | .invalid _ :: _, _, _, _ => by rw [cmdLoop]; rfl
  | .c _ :: os, kill, conf, w | .k :: os, kill, conf, w | .v :: os, kill, conf, w
  | .z :: os, kill, conf, w => by
    rw [cmdLoop, cmdLoop_eq os]
    simp [cmdSettings, Opt.exit?, Opt.file?, Opt.warning?, cmdPorts, List.findSome?_cons,
      List.getLast?_cons]
  | .p arg :: os, kill, conf, w => by
    rw [cmdLoop]
    split_ifs with hp
    · have hc : cmdPorts (.p arg :: os) = cmdPorts os := by rw [cmdPorts, if_neg (by omega)]
      rw [cmdLoop_eq os]
      simp [cmdSettings, Opt.exit?, Opt.file?, Opt.warning?, hc, List.findSome?_cons, hp]
    · have hc : cmdPorts (.p arg :: os) = atoi arg :: cmdPorts os := by
        rw [cmdPorts, if_pos (by omega)]
      rw [cmdLoop_eq os]
      simp [cmdSettings, Opt.exit?, Opt.file?, Opt.warning?, hc, List.findSome?_cons, hp,
        List.getLast?_cons]

/-- **What `process_server_cmd_line` does with any argument vector**: it exits at the first
`-h`, `-V` or invalid option; otherwise, when `-k` was given, it calls `kill_daemon` after
the loop on what the options set, and else returns the configuration with the last `-c`,
the last positive `-p`, and `-v` and `-z` turned on, printing one warning for each `-p`
that is not positive, in order. -/
theorem processServerCmdLine_eq (opts : List Opt) (conf : ServerConfig) :
    processServerCmdLine opts conf =
      match opts.findSome? Opt.exit? with
      | some e => .error e
      | none => if opts.contains .k then .error (.kill (cmdSettings opts conf))
          else .ok (cmdSettings opts conf, opts.filterMap Opt.warning?) := by
  unfold processServerCmdLine
  rw [cmdLoop_eq]
  split
  · rfl
  · by_cases hk : opts.contains .k <;> simp [hk, bind, Except.bind, throw, throwThe,
      MonadExceptOf.throw, pure, Except.pure]

theorem cmdLoop_ok {opts : List Opt} {kill : Bool} {conf : ServerConfig} {w : List String}
    {r : Bool × ServerConfig × List String} (h : cmdLoop opts kill conf w = .ok r) :
    r.2.1 = cmdSettings opts conf := by
  rw [cmdLoop_eq] at h
  split at h
  · cases h
  · cases h; rfl

/-- The `getopt` loop leaves the port at the last valid `-p`, if there is one. -/
theorem cmdLoop_port (opts : List Opt) (kill : Bool) (conf : ServerConfig) (w : List String)
    (r : Bool × ServerConfig × List String) (h : cmdLoop opts kill conf w = .ok r) :
    r.2.1.port = (cmdPorts opts).getLast?.getD conf.port := by
  rw [cmdLoop_ok h]; rfl

/-- **The port's precedence**: after `create_server_conf`, a `process_server_cmd_line` that
returns and `process_server_conf_file` over any file, the port is the last `-p` with a
positive value, else the last `PORT` the main loop applies, else `DEFAULT_CONMAN_PORT`; so
it is positive when the default is. -/
theorem server_port_precedence {K : Consts} (hK : 2 ≤ K.maxLine) (io : LogOpens) (opts : List Opt)
    (ts : List Token) (conf : ServerConfig) (w : List String)
    (hcmd : processServerCmdLine opts (createServerConf K) = .ok (conf, w)) :
    ∃ r, processServerConfFile K io ts conf = .ok r ∧ r.1.port = specPort K opts ts ∧
      (0 < K.defaultConmanPort → 0 < r.1.port) := by
  have h1 : conf.port = (cmdPorts opts).getLast?.getD 0 := by
    obtain ⟨r, hr, hr'⟩ := bind_eq_ok.mp hcmd
    split_ifs at hr'
    have hp := cmdLoop_port opts false _ [] r hr
    rwa [(Except.ok.inj hr' : r.2 = (conf, w))] at hp
  have hnone : ¬0 < conf.port → (cmdPorts opts).getLast? = none := by
    intro hp
    cases hc : (cmdPorts opts).getLast? with
    | none => rfl
    | some p =>
      rw [hc] at h1
      exact absurd (h1 ▸ cmdPorts_pos opts p (List.mem_of_mem_getLast? hc)) hp
  obtain ⟨d, hd, -⟩ := confLoop_reads io hK ts (Lex.create ts) conf rfl
  have h2 := foldl_port (Directive.apply_port K io) (fileDirectives K ts) conf
  rw [← filePorts] at h2
  refine ⟨_, by unfold processServerConfFile; rw [hd]; rfl, ?_⟩
  unfold specPort
  dsimp only
  split_ifs with ha hb
  · -- a valid `-p`: the port saved before the loop is restored
    cases hc : (cmdPorts opts).getLast? with
    | none => simp only [hc, Option.getD_none] at h1; omega
    | some p => rw [hc] at h1; exact ⟨h1, fun _ => ha⟩
  · -- no port anywhere: the default
    have hf : (filePorts K ts).getLast? = none := by
      cases hf : (filePorts K ts).getLast? with
      | none => rfl
      | some q =>
        have hq := filePorts_pos K ts q (List.mem_of_mem_getLast? hf)
        rw [hf, Option.getD_some] at h2
        omega
    rw [hnone ha, hf]
    exact ⟨rfl, id⟩
  · -- the file's last `PORT`
    rw [hnone ha, Option.none_or]
    simp only [hnone ha, Option.getD_none] at h1
    cases hf : (filePorts K ts).getLast? with
    | none => rw [hf, Option.getD_none] at h2; omega
    | some q => rw [hf, Option.getD_some] at h2; exact ⟨h2, fun _ => by omega⟩

/-- `-p 7000` on the command line. -/
def portFlag : List Opt := [.p "7000"]

/-- A file with `SERVER PORT=8000`. -/
def portFile : List Token := [.keyword .server 1, .keyword .port 1, .equals 1, .integer "8000" 1,
  .endOfLine 1]

theorem port_flag_over_file :
    ∃ r, processServerConfFile Consts.sample LogOpens.sample portFile
        { createServerConf Consts.sample with port := 7000 } = .ok r ∧
      r.1.port = specPort Consts.sample portFlag portFile ∧
      (0 < Consts.sample.defaultConmanPort → 0 < r.1.port) :=
  server_port_precedence (by decide) LogOpens.sample portFlag portFile _ [] rfl

/-! ## The object graph the daemon starts with -/

/-- How a configuration file links the object `o` at `p`: a console has no writer and at
most one reader, a logfile; a logfile has no reader, and its writer is the console just
before it, whose only reader it is. -/
def Heap.LogLinkedAt (h : Heap) (p : Nat) (o : Obj) : Prop :=
  (o.type = .console ∧ o.writer = none ∧
    (o.readers = [] ∨ ∃ l lo, o.readers = [l] ∧ h.objs l = some lo ∧ lo.type = .logfile)) ∨
  (o.type = .logfile ∧ o.readers = [] ∧
    ∃ c co, p = c + 1 ∧ o.writer = some c ∧ h.objs c = some co ∧ co.type = .console ∧
      co.readers = [p])

/-- Every object is linked as a configuration file links it. -/
def Heap.LogLinked (h : Heap) : Prop := ∀ p o, h.objs p = some o → h.LogLinkedAt p o

/-- The objects a configuration lists: `objs` lists every object created, in the order of
creation, each of them live, and the links they form are intact. -/
structure ServerConfig.Listed (conf : ServerConfig) : Prop where
  objs_eq : conf.objs = List.range conf.heap.fresh
  live : ∀ p, p < conf.heap.fresh → conf.heap.objs p ≠ none
  intact : conf.heap.Intact

/-- The object graph of a configuration read from a file: its objects listed, each console
with a log the writer of its logfile alone, and nothing else linked. -/
structure ServerConfig.WellFormed (conf : ServerConfig) extends conf.Listed : Prop where
  logLinked : conf.heap.LogLinked

theorem createServerConf_wellFormed (K : Consts) : (createServerConf K).WellFormed :=
  ⟨⟨rfl, fun _ hp => absurd hp (Nat.not_lt_zero _), Heap.intact_empty⟩, fun _ _ h => nomatch h⟩

/-- The way an object is linked survives any growth of the heap. -/
theorem Heap.LogLinkedAt.mono {h h' : Heap} (hext : ∀ q oq, h.objs q = some oq → h'.objs q = some oq)
    {p : Nat} {o : Obj} (hl : h.LogLinkedAt p o) : h'.LogLinkedAt p o := by
  rcases hl with ⟨ht, hw, hr | ⟨l, lo, hr, hlo, hlt⟩⟩ | ⟨ht, hr, c, co, hp, hw, hco, hct, hcr⟩
  · exact .inl ⟨ht, hw, .inl hr⟩
  · exact .inl ⟨ht, hw, .inr ⟨l, lo, hr, hext l lo hlo, hlt⟩⟩
  · exact .inr ⟨ht, hr, c, co, hp, hw, hext c co hco, hct, hcr⟩

theorem Heap.LogLinked.alloc_console {h : Heap} (hs : h.LogLinked) (hb : h.BelowFresh) {o : Obj}
    (ht : o.type = .console) (hw : o.writer = none) (hr : o.readers = []) :
    (h.alloc o).1.LogLinked := by
  intro p o' hp
  change (if p = h.fresh then some o else h.objs p) = some o' at hp
  split_ifs at hp
  · cases hp; exact .inl ⟨ht, hw, .inl hr⟩
  · exact (hs p o' hp).mono fun q oq hq => hb.alloc_objs _ hq

/-- A console allocated with the logfile after it as its only reader, and that logfile. -/
theorem Heap.LogLinked.alloc_log {h : Heap} (hs : h.LogLinked) (hb : h.BelowFresh) {co lo : Obj}
    (hct : co.type = .console) (hcw : co.writer = none) (hcr : co.readers = [h.fresh + 1])
    (hlt : lo.type = .logfile) (hlr : lo.readers = []) (hlw : lo.writer = some h.fresh) :
    ((h.alloc co).1.alloc lo).1.LogLinked := by
  have hobjs : ∀ q, ((h.alloc co).1.alloc lo).1.objs q =
      if q = h.fresh + 1 then some lo else if q = h.fresh then some co else h.objs q := fun _ => rfl
  have hc : ((h.alloc co).1.alloc lo).1.objs h.fresh = some co := by
    rw [hobjs, if_neg (Nat.ne_of_lt (Nat.lt_succ_self _)), if_pos rfl]
  intro p o hp
  rw [hobjs] at hp
  split_ifs at hp with h1 h2
  · cases hp; subst h1; exact .inr ⟨hlt, hlr, _, co, rfl, hlw, hc, hct, hcr⟩
  · cases hp; exact .inl ⟨hct, hcw, .inr ⟨_, lo, hcr, by rw [hobjs, if_pos rfl], hlt⟩⟩
  · exact (hs p o hp).mono fun q oq hq => (hb.alloc _).alloc_objs _ (hb.alloc_objs _ hq)

/-- A `CONSOLE` line that is taken links its console to its logfile alone. -/
theorem Heap.LogLinked.withConsole {K : Consts} {io : LogOpens} {conf : ServerConfig}
    {name dev log : String} {bps : Int} (hs : conf.heap.LogLinked) (hb : conf.heap.BelowFresh) :
    (conf.withConsole K io name dev log bps).heap.LogLinked := by
  unfold ServerConfig.withConsole
  split_ifs
  · exact hs.alloc_console hb rfl rfl rfl
  · exact hs.alloc_log hb rfl rfl rfl (by rw [Obj.type, Obj.opened_aux]; rfl)
      (by rw [Obj.opened_readers]; rfl) (by rw [Obj.opened_writer])

namespace ServerConfig.Listed

/-- Only `heap` and `objs` matter. -/
theorem of_eq {conf conf' : ServerConfig} (hwf : conf.Listed) (hh : conf'.heap = conf.heap)
    (ho : conf'.objs = conf.objs) : conf'.Listed :=
  ⟨by rw [ho, hh]; exact hwf.objs_eq, by rw [hh]; exact hwf.live, by rw [hh]; exact hwf.intact⟩

/-- Every object a configuration lists is live. -/
theorem exists_obj {conf : ServerConfig} (hwf : conf.Listed) {p : Nat} (hp : p ∈ conf.objs) :
    ∃ o, conf.heap.objs p = some o :=
  Option.ne_none_iff_exists'.mp (hwf.live p (List.mem_range.mp (hwf.objs_eq ▸ hp)))

theorem alloc {conf : ServerConfig} (hwf : conf.Listed) {o : Obj} (hw : o.writer = none)
    (hr : o.readers = []) (he : o.gotEOF = false) :
    ({ conf with heap := (conf.heap.alloc o).1, objs := conf.objs ++ [(conf.heap.alloc o).2] } :
      ServerConfig).Listed where
  objs_eq := by simp only [Heap.alloc, hwf.objs_eq, List.range_succ]
  live p hp := by
    have hp' : p < conf.heap.fresh + 1 := hp
    show (if p = conf.heap.fresh then some o else conf.heap.objs p) ≠ none
    split_ifs with h1
    · exact Option.some_ne_none o
    · exact hwf.live p (by omega)
  intact := hwf.intact.alloc hw hr he

/-- `create_obj_link` onto an object nobody writes to keeps the objects listed. -/
theorem createObjLink {N fuel : Nat} {conf : ServerConfig} (hwf : conf.Listed) {src dst : Nat}
    {so d : Obj} {openFd : Int} {now : String} {h' : Heap} (hsd : src ≠ dst)
    (hso : conf.heap.objs src = some so) (hd : conf.heap.objs dst = some d) (hdw : d.writer = none)
    (hok : Conman.createObjLink N fuel conf.heap src dst openFd now = .ok h') :
    ({ conf with heap := h' } : ServerConfig).Listed := by
  have hi := createObjLink_intact hwf.intact hsd hso hd hdw hok
  simp only [Conman.createObjLink, Heap.get_of_objs hd, pure_bind, stealIfWritten, hdw,
    linkObjs_eq hsd hso hd, bind_eq_ok] at hok
  obtain ⟨h3, h3ok, h4, h4ok, hok⟩ := hok
  cases h3ok
  have ht := (openIfClosed_tame h4ok).trans (openIfClosed_tame hok)
  have hlive : ∀ q, q < conf.heap.fresh → h'.objs q ≠ none := fun q hq => by
    refine (ht.live q).mpr ?_
    simp only [Heap.objs_set]
    split_ifs
    exacts [Option.some_ne_none _, Option.some_ne_none _, hwf.live q hq]
  exact ⟨by rw [ht.1]; exact hwf.objs_eq, fun q hq => hlive q (by rw [ht.1] at hq; exact hq), hi⟩

/-- The objects `parse_console_directive` creates for a line that is taken stay listed. -/
theorem registerConsole {K : Consts} {io : LogOpens} {conf conf' : ServerConfig}
    {name dev log : String} {bps : Int} (hwf : conf.Listed)
    (hok : Conman.registerConsole K io conf name dev log bps = .ok conf') : conf'.Listed := by
  simp only [Conman.registerConsole, createConsoleObj, bind_eq_ok, ne_eq, not_true_eq_false,
    if_false] at hok
  obtain ⟨⟨h1, c⟩, ⟨_, -, _, -, hc⟩, hok⟩ := hok
  cases hc
  have hwf1 := hwf.alloc (o := createObj name (.console dev .uninitialized .uninitialized bps))
    rfl rfl rfl
  split at hok
  · cases hok; exact hwf1
  · simp only [createLogfileObj, bind_eq_ok] at hok
    obtain ⟨h2, h2ok, hok⟩ := hok
    cases hok
    have hwf2 := hwf1.alloc (o := createObj log .logfile) rfl rfl rfl
    have hne : conf.heap.fresh ≠ conf.heap.fresh + 1 := Nat.ne_of_lt (Nat.lt_succ_self _)
    exact hwf2.createObjLink hne
      (show _ = some (createObj name (.console dev .uninitialized .uninitialized bps)) by
        simp [Heap.alloc, hne])
      (show _ = some (createObj log .logfile) by simp [Heap.alloc]) rfl h2ok

end ServerConfig.Listed

namespace ServerConfig.WellFormed

/-- Only `heap` and `objs` matter. -/
theorem of_eq {conf conf' : ServerConfig} (hwf : conf.WellFormed) (hh : conf'.heap = conf.heap)
    (ho : conf'.objs = conf.objs) : conf'.WellFormed :=
  ⟨hwf.toListed.of_eq hh ho, hh ▸ hwf.logLinked⟩

theorem addConsole {K : Consts} (hK : 2 ≤ K.maxLine) {io : LogOpens} {conf : ServerConfig}
    (hwf : conf.WellFormed) {c : Option ConsoleSpec}
    (hc : ∀ s, c = some s → s.name ≠ "" ∧ s.dev ≠ "") : (conf.addConsole K io c).WellFormed := by
  cases c with
  | none => exact hwf
  | some s =>
    obtain ⟨hn, hd⟩ := hc s rfl
    exact ⟨hwf.toListed.registerConsole (registerConsole_eq io _ _
      ((Consts.fit_eq_empty hK).not.mpr hn) ((Consts.fit_eq_empty hK).not.mpr hd)),
      hwf.logLinked.withConsole hwf.intact.belowFresh⟩

end ServerConfig.WellFormed

theorem ConsoleSpec.ofLine_some {K : Consts} {cur : List Token} {c : ConsoleSpec}
    (h : ConsoleSpec.ofLine K cur = some c) : c.name ≠ "" ∧ c.dev ≠ "" := by
  unfold ConsoleSpec.ofLine at h
  cases hc : consoleOpts cur with
  | none => simp [hc] at h
  | some os =>
    simp only [hc, Option.some_bind] at h
    split_ifs at h with hbad
    cases h; exact not_or.mp hbad

/-- The options of a `SERVER` line touch neither the heap nor the object list. -/
theorem foldl_apply_objects : ∀ (os : List ServerOpt) (conf : ServerConfig),
    (os.foldl ServerConfig.apply conf).heap = conf.heap ∧
      (os.foldl ServerConfig.apply conf).objs = conf.objs
  | [], _ => ⟨rfl, rfl⟩
  | o :: os, conf => by
    rw [List.foldl_cons]
    obtain ⟨h1, h2⟩ := foldl_apply_objects os (conf.apply o)
    cases o <;> exact ⟨h1, h2⟩

theorem foldl_directives_wellFormed {K : Consts} (hK : 2 ≤ K.maxLine) (io : LogOpens) :
    ∀ (ts : List Token) (conf : ServerConfig), conf.WellFormed →
      ((fileDirectives K ts).foldl (Directive.apply K io) conf).WellFormed
  | [], conf, hwf => by rw [fileDirectives]; exact hwf
  | t :: ts, conf, hwf => by
    rw [fileDirectives_cons, List.foldl_append]
    refine foldl_directives_wellFormed hK io _ _ ?_
    unfold readItem
    split
    · exact hwf.addConsole hK fun s hs => ConsoleSpec.ofLine_some hs
    · obtain ⟨h1, h2⟩ := foldl_apply_objects (serverOpts (takeLine ts)).1 conf
      exact hwf.of_eq h1 h2
    all_goals exact hwf
termination_by ts => ts.length
decreasing_by exact Nat.lt_succ_of_le (readItem_rest_le K t.tok ts)

/-- A command line that returns keeps the objects of `create_server_conf`. -/
theorem processServerCmdLine_objects {K : Consts} {opts : List Opt} {conf : ServerConfig}
    {w : List String} (hcmd : processServerCmdLine opts (createServerConf K) = .ok (conf, w)) :
    conf.heap = (createServerConf K).heap ∧ conf.objs = (createServerConf K).objs := by
  obtain ⟨r, hr, hr'⟩ := bind_eq_ok.mp hcmd
  split_ifs at hr'
  rw [show conf = cmdSettings opts (createServerConf K) by
    rw [← cmdLoop_ok hr, (Except.ok.inj hr' : r.2 = (conf, w))]]
  exact ⟨rfl, rfl⟩

/-- `process_server_conf_file` returns, with the objects its directives create. -/
theorem processServerConfFile_objects {K : Consts} (hK : 2 ≤ K.maxLine) (io : LogOpens)
    (ts : List Token) (conf : ServerConfig) :
    ∃ r, processServerConfFile K io ts conf = .ok r ∧
      r.1.heap = ((fileDirectives K ts).foldl (Directive.apply K io) conf).heap ∧
      r.1.objs = ((fileDirectives K ts).foldl (Directive.apply K io) conf).objs := by
  obtain ⟨d, hd, -⟩ := confLoop_reads io hK ts (Lex.create ts) conf rfl
  refine ⟨_, by unfold processServerConfFile; rw [hd]; rfl, ?_⟩
  dsimp only
  split_ifs <;> exact ⟨rfl, rfl⟩

/-- **What `process_server_conf_file` prints.** Over any file it returns, keeps the
configuration file's name, and prints one line per directive that is reported, each
`ERROR: <file>:<line>: <reason>.` with a reason, on stderr for a `SERVER` or `CONSOLE`
line and on stdout for what the main loop reports itself. -/
theorem processServerConfFile_diagnostics {K : Consts} (hK : 2 ≤ K.maxLine) (io : LogOpens)
    (ts : List Token) (conf : ServerConfig) :
    ∃ r, processServerConfFile K io ts conf = .ok r ∧ r.1.filename = conf.filename ∧
      r.2.length = ((fileDirectives K ts).filter Directive.reported).length ∧
      r.2.map Printed.stream =
        ((fileDirectives K ts).filter Directive.reported).map Directive.stream ∧
      ∀ m ∈ r.2, Diagnostic conf.filename m := by
  obtain ⟨d, hd, hs⟩ := confLoop_reads io hK ts (Lex.create ts) conf rfl
  obtain ⟨hf, hm⟩ := confLoop_diagnostics io hK ts (Lex.create ts) conf rfl _ hd
  have hlen := congrArg List.length hs
  rw [List.length_map, List.length_map] at hlen
  refine ⟨_, by unfold processServerConfFile; rw [hd]; rfl, ?_⟩
  dsimp only
  split_ifs <;> exact ⟨hf, hlen, hs, hm⟩

/-- A line holding only an integer. -/
def junkFile : List Token := [.integer "42" 1, .endOfLine 1]

theorem junk_file_diagnosed :
    ∃ r, processServerConfFile Consts.sample LogOpens.sample junkFile
        (createServerConf Consts.sample) = .ok r ∧
      r.1.filename = (createServerConf Consts.sample).filename ∧
      r.2.length = ((fileDirectives Consts.sample junkFile).filter Directive.reported).length ∧
      r.2.map Printed.stream =
        ((fileDirectives Consts.sample junkFile).filter Directive.reported).map Directive.stream ∧
      ∀ m ∈ r.2, Diagnostic (createServerConf Consts.sample).filename m :=
  processServerConfFile_diagnostics (by decide) LogOpens.sample junkFile _

/-- `CONSOLE NAME="c1" DEV="/dev/ttyS0" LOG="c1.log"` as a file. -/
def consoleFile : List Token :=
  [.keyword .console 1, .keyword .name 1, .equals 1, .string "c1" 1, .keyword .dev 1,
    .equals 1, .string "/dev/ttyS0" 1, .keyword .log 1, .equals 1, .string "c1.log" 1,
    .endOfLine 1]

end Conman
