/-
The options of the two directives as the spec states them (`KEY=VALUE` pairs, each key
with the values it takes), and what the parsers of `server-conf.c` make of a line.

A `CONSOLE` line is taken whole or not at all (`parseConsoleDirective_opts`), but the
values it stores are cut to `MAX_LINE - 1` characters. A `SERVER` line is not taken
whole (`parseServerDirective_opts`): its options are applied one by one, and those
before the first one that is not well formed keep their effect when the line is
reported as an error.
-/
import Conman.Directive

namespace Conman

/-! ## The spec's option grammar -/

/-- A `STRING`. -/
def str? (t : Tok) (text : String) : Option String := if t = .str then some text else none

/-- An integer, given as `INT` or `STRING`, whose value is positive. -/
def posInt? (t : Tok) (text : String) : Option Int :=
  if (t = .str ∨ t = .int) ∧ 0 < atoi text then some (atoi text) else none

/-- `ON` or `OFF`. -/
def onOff? (t : Tok) : Option Bool :=
  if t = .kw .on then some true else if t = .kw .off then some false else none

theorem stringValue_ok_iff {k : Kw} {t : Tok} {text x : String} :
    stringValue k t text = .ok x ↔ str? t text = some x := by
  unfold stringValue str?; by_cases ht : t = .str <;> simp [ht, eq_comm]

theorem intValue_ok_iff {k : Kw} {t : Tok} {text : String} {x : Int} :
    intValue k t text = .ok x ↔ posInt? t text = some x := by
  unfold intValue posInt?
  by_cases ht : t = .str ∨ t = .int
  · have h1 : ¬(t ≠ .str ∧ t ≠ .int) := by tauto
    by_cases hp : 0 < atoi text
    · rw [if_neg h1, if_neg (by omega), if_pos ⟨ht, hp⟩]; simp [eq_comm]
    · rw [if_neg h1, if_pos (by omega), if_neg (fun h => hp h.2)]; simp
  · rw [if_pos (by tauto), if_neg (fun h => ht h.1)]; simp

theorem onOffValue_ok_iff {k : Kw} {t : Tok} {text : String} {x : Bool} :
    onOffValue k t text = .ok x ↔ onOff? t = some x := by
  unfold onOffValue onOff?; split_ifs <;> simp [eq_comm]

/-! ## `KEY=VALUE` on given tokens -/

section
variable {l : Lex} {α : Type} {k : Kw} {value : Tok → String → Except String α}

theorem keyValue_cons₂ {e v : Token} {ts : List Token} (hl : l.rest = e :: v :: ts) :
    keyValue l k value =
      if e.tok = .char '=' then (⟨ts, v.tok, v.text, v.line⟩, value v.tok v.text)
      else (⟨v :: ts, e.tok, e.text, e.line⟩, .error (Msg.expectedEq k)) := by
  unfold keyValue
  simp only [Lex.next, hl]
  by_cases he : e.tok = .char '=' <;> simp [he]

/-- A value accepted is the token after an `=`, at the head of what is left. -/
theorem keyValue_ok (hv : ValueTest value) {x : α} (h : (keyValue l k value).2 = .ok x) :
    ∃ e v ts, l.rest = e :: v :: ts ∧ e.tok = .char '=' ∧ value v.tok v.text = .ok x ∧
      (keyValue l k value).1 = ⟨ts, v.tok, v.text, v.line⟩ := by
  match hr : l.rest with
  | [] => simp [keyValue, Lex.next, hr] at h
  | [e] =>
    rw [keyValue] at h; simp only [Lex.next, hr] at h
    split_ifs at h
    exact absurd (hv.ok _ _ _ h).2 (by decide)
  | e :: v :: ts =>
    rw [keyValue_cons₂ hr] at h ⊢
    split_ifs at h ⊢ with he
    exact ⟨e, v, ts, rfl, he, h, rfl⟩

end

/-! ## `SERVER` -/

/-- An option of a `SERVER` line that sets something. -/
inductive ServerOpt where
  | keepalive (b : Bool)
  | loopback (b : Bool)
  | port (n : Int)
deriving DecidableEq, Repr

/-- What an option sets. -/
def ServerConfig.apply (conf : ServerConfig) : ServerOpt → ServerConfig
  | .keepalive b => { conf with enableKeepAlive := b }
  | .loopback b => { conf with enableLoopBack := b }
  | .port n => { conf with port := n }

/-- `KEEPALIVE=ON|OFF`, `LOOPBACK=ON|OFF` or `PORT=<int>` with a positive value. The
reserved `LOGFILE`, `PIDFILE` and `TIMESTAMP` set nothing and are reported. -/
def serverOpt (k e v : Token) : Option ServerOpt :=
  if e.tok ≠ .char '=' then none else
  match k.tok with
  | .kw .keepalive => (onOff? v.tok).map .keepalive
  | .kw .loopback => (onOff? v.tok).map .loopback
  | .kw .port => (posInt? v.tok v.text).map .port
  | _ => none

/-- The well-formed options at the head of a `SERVER` line, and whether something that is
not a well-formed option follows them. -/
def serverOpts : List Token → List ServerOpt × Bool
  | [] => ([], false)
  | k :: e :: v :: rest =>
    match serverOpt k e v with
    | some o => (o :: (serverOpts rest).1, (serverOpts rest).2)
    | none => ([], true)
  | _ => ([], true)

theorem serverOpt_some_tok {k e v : Token} {o : ServerOpt} (h : serverOpt k e v = some o) :
    e.tok ≠ .eol ∧ v.tok ≠ .eol := by
  unfold serverOpt at h
  split_ifs at h with he
  refine ⟨by rw [not_not.mp he]; decide, fun hv => ?_⟩
  split at h <;> simp [hv, onOff?, posInt?] at h

section
variable {K : Consts} {l : Lex} {q : ServerConfig × String}

theorem ServerConfig.store_fst {α : Type} {conf : ServerConfig} {r : Except String α}
    {set : α → ServerConfig} (h : (conf.store K r set).2 ≠ "") : (conf.store K r set).1 = conf := by
  cases r with
  | ok v => exact absurd rfl h
  | error e => rfl

/-- **A well-formed option is applied**, and the pass stops after its value. -/
theorem serverOption_of_some {k e v : Token} {ts : List Token} (hl : l.rest = k :: e :: v :: ts)
    {o : ServerOpt} (ho : serverOpt k e v = some o) :
    serverOption K l q = (⟨ts, v.tok, v.text, v.line⟩, (q.1.apply o, ""), false) := by
  unfold serverOpt at ho
  split_ifs at ho with he
  unfold serverOption
  simp only [Lex.next, hl]
  split at ho <;> rename_i hk <;>
    first
    | cases ho
    | obtain ⟨x, hx, rfl⟩ := Option.map_eq_some'.mp ho
      simp only [hk]
      rw [keyValue_cons₂ rfl, if_pos (not_not.mp he)]
      first
      | rw [onOffValue_ok_iff.mpr hx]; rfl
      | rw [intValue_ok_iff.mpr hx]; rfl

/-- A pass that leaves no message and does not end the loop read a well-formed option. -/
theorem serverOption_wellFormed (hK : 2 ≤ K.maxLine) (hd : (serverOption K l q).2.2 = false)
    (he : (serverOption K l q).2.1.2 = "") :
    ∃ k e v ts o, l.rest = k :: e :: v :: ts ∧ serverOpt k e v = some o := by
  cases hr : l.rest with
  | nil => simp [serverOption, Lex.next, hr] at hd
  | cons k ts =>
    unfold serverOption at hd he
    simp only [Lex.next, hr] at hd he
    revert hd he
    split <;> intro hd he <;> rename_i hk
    all_goals first
      | (simp at hd; done)
      | exact absurd ((Consts.fit_eq_empty hK).mp he) Msg.unmatchedQuote_ne
      | exact absurd ((Consts.fit_eq_empty hK).mp he) (Msg.unrecognized_ne _)
      | exact absurd ((Consts.fit_eq_empty hK).mp he) (Msg.notImplemented_ne _)
      | skip
    · obtain ⟨x, hx⟩ := ServerConfig.store_ok hK (fun _ => keyValue_error_ne (onOffValue_test _)) he
      obtain ⟨e, v, ts', rfl, he', hv, -⟩ := keyValue_ok (onOffValue_test _) hx
      exact ⟨k, e, v, ts', .keepalive x, rfl, by simp [serverOpt, he', hk, onOffValue_ok_iff.mp hv]⟩
    · obtain ⟨x, hx⟩ := ServerConfig.store_ok hK (fun _ => keyValue_error_ne (onOffValue_test _)) he
      obtain ⟨e, v, ts', rfl, he', hv, -⟩ := keyValue_ok (onOffValue_test _) hx
      exact ⟨k, e, v, ts', .loopback x, rfl, by simp [serverOpt, he', hk, onOffValue_ok_iff.mp hv]⟩
    · obtain ⟨x, hx⟩ := ServerConfig.store_ok hK (fun _ => keyValue_error_ne (intValue_test _)) he
      obtain ⟨e, v, ts', rfl, he', hv, -⟩ := keyValue_ok (intValue_test _) hx
      exact ⟨k, e, v, ts', .port x, rfl, by simp [serverOpt, he', hk, intValue_ok_iff.mp hv]⟩

/-- A pass that leaves a message changes nothing. -/
theorem serverOption_conf_of_err (he : (serverOption K l q).2.1.2 ≠ "") :
    (serverOption K l q).2.1.1 = q.1 := by
  unfold serverOption at he ⊢
  dsimp only at he ⊢
  revert he
  split <;> intro he <;> first | rfl | exact ServerConfig.store_fst he

theorem serverOption_of_end (h : (l.next).1 = .eol ∨ (l.next).1 = .eof) :
    serverOption K l q = ((l.next).2, (q.1, ""), true) := by
  unfold serverOption; rcases h with h | h <;> simp only [h]

theorem serverOption_not_done (h1 : (l.next).1 ≠ .eol) (h2 : (l.next).1 ≠ .eof) :
    (serverOption K l q).2.2 = false := by
  unfold serverOption; dsimp only; split <;> first | rfl | simp_all

end

/-- **The loop of `parse_server_directive` over a line** applies the well-formed options
at its head in order, and leaves a message exactly when something else follows them. -/
theorem serverLoop_opts {K : Consts} (hK : 2 ≤ K.maxLine) :
    ∀ (cur rest : List Token) (l : Lex) (conf : ServerConfig), (∀ t ∈ cur, t.tok ≠ .eol) →
      (∀ t ∈ rest.head?, t.tok = .eol) → l.rest = cur ++ rest →
      ((serverPass K).loop l (conf, "")).2.1 = (serverOpts cur).1.foldl ServerConfig.apply conf ∧
        (((serverPass K).loop l (conf, "")).2.2 ≠ "" ↔ (serverOpts cur).2 = true)
  | [], rest, l, conf, _, hrest, hl => by
    have hend : (l.next).1 = .eol ∨ (l.next).1 = .eof := by
      cases rest with
      | nil => exact .inr (Lex.next_eof_iff.mpr (by simpa using hl))
      | cons e more =>
        left; simp only [List.nil_append] at hl
        simp only [Lex.next, hl]; exact hrest e rfl
    have hs := serverOption_of_end (K := K) (q := (conf, "")) hend
    rw [Pass.loop_stop (by left; simp only [serverPass, hs])]
    simp [serverPass, hs, serverOpts]
  | k :: ts, rest, l, conf, hcur, hrest, hl => by
    have hk : k.tok ≠ .eol := hcur k (List.mem_cons_self _ _)
    have hnext : l.next = (k.tok, ⟨ts ++ rest, k.tok, k.text, k.line⟩) := by
      simp [Lex.next, hl]
    by_cases hgood : ∃ e v cur' o, ts = e :: v :: cur' ∧ serverOpt k e v = some o
    · obtain ⟨e, v, cur', o, rfl, ho⟩ := hgood
      have hs := serverOption_of_some (K := K) (q := (conf, "")) (by simpa using hl) ho
      rw [Pass.loop_go (by simp [serverPass, hs])]
      simp only [serverPass, hs]
      have ih := serverLoop_opts hK cur' rest ⟨cur' ++ rest, v.tok, v.text, v.line⟩
        (conf.apply o) (fun t ht => hcur t (by simp [ht])) hrest rfl
      simpa [serverOpts, ho] using ih
    · have hd := serverOption_not_done (K := K) (q := (conf, "")) (l := l)
        (by rw [hnext]; exact hk) (by rw [hnext]; exact k.not_eof)
      have he : (serverOption K l (conf, "")).2.1.2 ≠ "" := by
        intro he
        obtain ⟨k', e, v, ts', o, hr, ho⟩ := serverOption_wellFormed hK hd he
        rw [hl, List.cons_append, List.cons.injEq] at hr
        obtain ⟨rfl, hts⟩ := hr
        obtain ⟨he', hv'⟩ := serverOpt_some_tok ho
        refine hgood ?_
        match ts, hts with
        | [], hts =>
          rw [List.nil_append] at hts
          exact absurd (hrest e (by simp [hts])) he'
        | [e'], hts =>
          simp only [List.singleton_append, List.cons.injEq] at hts
          exact absurd (hrest v (by simp [hts.2])) hv'
        | e' :: v' :: cur', hts =>
          simp only [List.cons_append, List.cons.injEq] at hts
          obtain ⟨rfl, rfl, -⟩ := hts
          exact ⟨e', v', cur', o, rfl, ho⟩
      have hbad : serverOpts (k :: ts) = ([], true) := by
        match ts, hgood with
        | [], _ => rfl
        | [_], _ => rfl
        | e :: v :: cur', hgood =>
          have : serverOpt k e v = none := by
            cases h : serverOpt k e v with
            | none => rfl
            | some o => exact absurd ⟨e, v, cur', o, rfl, h⟩ hgood
          simp [serverOpts, this]
      rw [Pass.loop_stop (by right; exact he)]
      simp only [serverPass, hbad, List.foldl_nil, serverOption_conf_of_err he]
      simpa using he

/-- **What `parse_server_directive` does with a line**: the well-formed options at its head
are applied in order, and the first thing after them that is not one is reported, on
one line, without undoing them. -/
theorem parseServerDirective_opts {K : Consts} (hK : 2 ≤ K.maxLine) (l : Lex)
    (conf : ServerConfig) (cur rest : List Token) (hcur : ∀ t ∈ cur, t.tok ≠ .eol)
    (hrest : ∀ t ∈ rest.head?, t.tok = .eol) (hl : l.rest = cur ++ rest) :
    (parseServerDirective K l conf).2.1 = (serverOpts cur).1.foldl ServerConfig.apply conf ∧
      (parseServerDirective K l conf).2.2.length = if (serverOpts cur).2 then 1 else 0 := by
  obtain ⟨h1, h2⟩ := serverLoop_opts hK cur rest l conf hcur hrest hl
  unfold parseServerDirective serverLoop; dsimp only
  split <;> rename_i he
  · simp [h1, h2.mp he]
  · simp [h1, (not_congr h2).mp he]

/-- `SERVER KEEPALIVE=ON`, at the first line of a file. -/
def keepAliveOnLine : Lex :=
  ⟨[.keyword .keepalive 1, .equals 1, .keyword .on 1, .endOfLine 1], .kw .server, "SERVER", 1⟩

theorem keepAliveOnLine_sets :
    (parseServerDirective Consts.sample keepAliveOnLine (createServerConf Consts.sample)).2.1 =
        (createServerConf Consts.sample).apply (.keepalive true) ∧
      (parseServerDirective Consts.sample keepAliveOnLine
        (createServerConf Consts.sample)).2.2.length = 0 :=
  parseServerDirective_opts (by decide) keepAliveOnLine _ _ [.endOfLine 1] (by decide) (by decide)
    (show _ = [_, _, _] ++ _ from rfl)

/-- `SERVER KEEPALIVE=OFF "junk"`: the option before the error is applied. -/
def keepAliveOffThenJunk : Lex :=
  ⟨[.keyword .keepalive 1, .equals 1, .keyword .off 1, .string "junk" 1, .endOfLine 1],
    .kw .server, "SERVER", 1⟩

/-- **A `SERVER` line with an error is not without effect**: `KEEPALIVE=OFF` before an
unrecognized token turns keep-alive off, and the line is reported. -/
theorem server_error_keeps_earlier_option :
    (createServerConf Consts.sample).enableKeepAlive = true ∧
      (parseServerDirective Consts.sample keepAliveOffThenJunk
        (createServerConf Consts.sample)).2.1.enableKeepAlive = false ∧
      (parseServerDirective Consts.sample keepAliveOffThenJunk
        (createServerConf Consts.sample)).2.2.length = 1 := by
  obtain ⟨h1, h2⟩ := serverLoop_opts (K := Consts.sample) (by decide)
    [.keyword .keepalive 1, .equals 1, .keyword .off 1, .string "junk" 1] [.endOfLine 1]
    keepAliveOffThenJunk (createServerConf Consts.sample) (by decide) (by decide) rfl
  have hopts : serverOpts [.keyword .keepalive 1, .equals 1, .keyword .off 1, .string "junk" 1] =
      ([.keepalive false], true) := by decide
  rw [hopts] at h1 h2
  unfold parseServerDirective serverLoop; dsimp only
  rw [if_pos (h2.mpr rfl)]
  exact ⟨rfl, by rw [h1]; rfl, rfl⟩

/-! ## `CONSOLE` -/

/-- An option of a `CONSOLE` line. -/
inductive ConsoleOpt where
  | name (v : String)
  | dev (v : String)
  | log (v : String)
  | bps (n : Int)
deriving DecidableEq, Repr

/-- The console a `CONSOLE` line describes: the last value given to each option. -/
structure ConsoleSpec where
  name : String
  dev : String
  log : String
  bps : Int

def ConsoleSpec.apply (c : ConsoleSpec) : ConsoleOpt → ConsoleSpec
  | .name v => { c with name := v }
  | .dev v => { c with dev := v }
  | .log v => { c with log := v }
  | .bps n => { c with bps := n }

/-- `NAME`, `DEV` or `LOG` with a `STRING`, or `BPS` with a positive integer. -/
def consoleOpt (k e v : Token) : Option ConsoleOpt :=
  if e.tok ≠ .char '=' then none else
  match k.tok with
  | .kw .name => (str? v.tok v.text).map .name
  | .kw .dev => (str? v.tok v.text).map .dev
  | .kw .log => (str? v.tok v.text).map .log
  | .kw .bps => (posInt? v.tok v.text).map .bps
  | _ => none

/-- The options of a `CONSOLE` line, or `none` when one of them is not well formed. -/
def consoleOpts : List Token → Option (List ConsoleOpt)
  | [] => some []
  | k :: e :: v :: rest =>
    match consoleOpt k e v with
    | some o => (consoleOpts rest).map (o :: ·)
    | none => none
  | _ => none

/-- The locals of `parse_console_directive` after options that describe `c`, with no
error: each value cut to `MAX_LINE - 1` characters. -/
def ConsoleSpec.args (K : Consts) (c : ConsoleSpec) : ConsoleArgs :=
  ⟨"", K.fit c.name, K.fit c.dev, K.fit c.log, c.bps⟩

/-- The configuration after a `CONSOLE` line that is taken: the console `name` on `dev` at
`bps`, its log and reset command uninitialised, at the next free address, and for a `log`
the logfile after it, which the console writes to, opened as `io` answers. -/
def ServerConfig.withConsole (K : Consts) (io : LogOpens) (conf : ServerConfig)
    (name dev log : String) (bps : Int) : ServerConfig :=
  let c := conf.heap.fresh
  let console := createObj name (.console dev .uninitialized .uninitialized bps)
  if log = "" then { conf with heap := (conf.heap.alloc console).1, objs := conf.objs ++ [c] }
  else
    let h := (conf.heap.alloc { console with readers := [c + 1] }).1
    let logfile := { createObj log .logfile with writer := some c }.opened K.maxBufSize name
      (io.openFd (c + 1)) (io.now (c + 1))
    { conf with heap := (h.alloc logfile).1, objs := conf.objs ++ [c, c + 1] }

/-- The console a `CONSOLE` line with options `cur` asks for: all its options well formed,
and a name and a device given. -/
def ConsoleSpec.ofLine (K : Consts) (cur : List Token) : Option ConsoleSpec :=
  (consoleOpts cur).bind fun os =>
    let c := os.foldl ConsoleSpec.apply ⟨"", "", "", K.defaultConsoleBaud⟩
    if c.name = "" ∨ c.dev = "" then none else some c

/-- The configuration after a `CONSOLE` line that asks for `c`, if it asks for one. -/
def ServerConfig.addConsole (K : Consts) (io : LogOpens) (conf : ServerConfig) :
    Option ConsoleSpec → ServerConfig
  | some c => conf.withConsole K io (K.fit c.name) (K.fit c.dev) (K.fit c.log) c.bps
  | none => conf

theorem str?_some {t : Tok} {text x : String} (h : str? t text = some x) : t = .str ∧ x = text := by
  unfold str? at h; split_ifs at h with ht; cases h; exact ⟨ht, rfl⟩

theorem consoleOpt_some_tok {k e v : Token} {o : ConsoleOpt} (h : consoleOpt k e v = some o) :
    e.tok ≠ .eol ∧ v.tok ≠ .eol := by
  unfold consoleOpt at h
  split_ifs at h with he
  refine ⟨by rw [not_not.mp he]; decide, fun hv => ?_⟩
  split at h <;> simp [hv, str?, posInt?] at h

section
variable {K : Consts} {l : Lex} {c : ConsoleSpec}

/-- **A well-formed option is stored**, cut to `MAX_LINE - 1` characters, and the pass
stops after its value; `DEV`'s second copy stores the same text. -/
theorem consoleOption_of_some {k e v : Token} {ts : List Token} (hl : l.rest = k :: e :: v :: ts)
    {o : ConsoleOpt} (ho : consoleOpt k e v = some o) :
    consoleOption K l (c.args K) = (⟨ts, v.tok, v.text, v.line⟩, (c.apply o).args K, false) := by
  unfold consoleOpt at ho
  split_ifs at ho with he
  unfold consoleOption
  simp only [Lex.next, hl]
  split at ho <;> rename_i hk <;>
    first
    | cases ho
    | obtain ⟨x, hx, rfl⟩ := Option.map_eq_some'.mp ho
      simp only [hk]
      rw [keyValue_cons₂ rfl, if_pos (not_not.mp he)]
      first
      | rw [intValue_ok_iff.mpr hx]; rfl
      | obtain ⟨-, rfl⟩ := str?_some hx
        rw [stringValue_ok_iff.mpr hx]; rfl

/-- A pass that leaves no message and does not end the loop read a well-formed option. -/
theorem consoleOption_wellFormed (hK : 2 ≤ K.maxLine) {s : ConsoleArgs}
    (hd : (consoleOption K l s).2.2 = false) (he : (consoleOption K l s).2.1.err = "") :
    ∃ k e v ts o, l.rest = k :: e :: v :: ts ∧ consoleOpt k e v = some o := by
  cases hr : l.rest with
  | nil => simp [consoleOption, Lex.next, hr] at hd
  | cons k ts =>
    unfold consoleOption at hd he
    simp only [Lex.next, hr] at hd he
    revert hd he
    split <;> intro hd he <;> rename_i hk
    all_goals first
      | (simp at hd; done)
      | exact absurd ((Consts.fit_eq_empty hK).mp he) Msg.unmatchedQuote_ne
      | exact absurd ((Consts.fit_eq_empty hK).mp he) (Msg.unrecognized_ne _)
      | skip
    · obtain ⟨x, hx⟩ := ConsoleArgs.store_ok hK (fun _ => keyValue_error_ne (stringValue_test _)) he
      obtain ⟨e, v, ts', rfl, he', hv, -⟩ := keyValue_ok (stringValue_test _) hx
      exact ⟨k, e, v, ts', .name x, rfl, by simp [consoleOpt, he', hk, stringValue_ok_iff.mp hv]⟩
    · obtain ⟨x, hx⟩ := ConsoleArgs.store_ok hK (fun _ => keyValue_error_ne (stringValue_test _)) he
      obtain ⟨e, v, ts', rfl, he', hv, -⟩ := keyValue_ok (stringValue_test _) hx
      exact ⟨k, e, v, ts', .dev x, rfl, by simp [consoleOpt, he', hk, stringValue_ok_iff.mp hv]⟩
    · obtain ⟨x, hx⟩ := ConsoleArgs.store_ok hK (fun _ => keyValue_error_ne (stringValue_test _)) he
      obtain ⟨e, v, ts', rfl, he', hv, -⟩ := keyValue_ok (stringValue_test _) hx
      exact ⟨k, e, v, ts', .log x, rfl, by simp [consoleOpt, he', hk, stringValue_ok_iff.mp hv]⟩
    · obtain ⟨x, hx⟩ := ConsoleArgs.store_ok hK (fun _ => keyValue_error_ne (intValue_test _)) he
      obtain ⟨e, v, ts', rfl, he', hv, -⟩ := keyValue_ok (intValue_test _) hx
      exact ⟨k, e, v, ts', .bps x, rfl, by simp [consoleOpt, he', hk, intValue_ok_iff.mp hv]⟩

theorem consoleOption_of_end {s : ConsoleArgs} (h : (l.next).1 = .eol ∨ (l.next).1 = .eof) :
    consoleOption K l s = ((l.next).2, s, true) := by
  unfold consoleOption; rcases h with h | h <;> simp only [h]

theorem consoleOption_not_done {s : ConsoleArgs} (h1 : (l.next).1 ≠ .eol)
    (h2 : (l.next).1 ≠ .eof) : (consoleOption K l s).2.2 = false := by
  unfold consoleOption; dsimp only; split <;> first | rfl | simp_all

end

/-- **The loop of `parse_console_directive` over a line** stores each option of a line
whose options are all well formed, and leaves a message otherwise. -/
theorem consoleLoop_opts {K : Consts} (hK : 2 ≤ K.maxLine) :
    ∀ (cur rest : List Token) (l : Lex) (c : ConsoleSpec), (∀ t ∈ cur, t.tok ≠ .eol) →
      (∀ t ∈ rest.head?, t.tok = .eol) → l.rest = cur ++ rest →
      match consoleOpts cur with
      | some os => ((consolePass K).loop l (c.args K)).2 = (os.foldl ConsoleSpec.apply c).args K
      | none => ((consolePass K).loop l (c.args K)).2.err ≠ ""
  | [], rest, l, c, _, hrest, hl => by
    have hend : (l.next).1 = .eol ∨ (l.next).1 = .eof := by
      cases rest with
      | nil => exact .inr (Lex.next_eof_iff.mpr (by simpa using hl))
      | cons e more =>
        left; simp only [List.nil_append] at hl
        simp only [Lex.next, hl]; exact hrest e rfl
    have hs := consoleOption_of_end (K := K) (s := c.args K) hend
    rw [Pass.loop_stop (by left; simp only [consolePass, hs])]
    simp [consolePass, hs, consoleOpts]
  | k :: ts, rest, l, c, hcur, hrest, hl => by
    have hk : k.tok ≠ .eol := hcur k (List.mem_cons_self _ _)
    have hnext : l.next = (k.tok, ⟨ts ++ rest, k.tok, k.text, k.line⟩) := by
      simp [Lex.next, hl]
    by_cases hgood : ∃ e v cur' o, ts = e :: v :: cur' ∧ consoleOpt k e v = some o
    · obtain ⟨e, v, cur', o, rfl, ho⟩ := hgood
      have hs := consoleOption_of_some (K := K) (c := c) (by simpa using hl) ho
      have hrun : (consolePass K).run = consoleOption K := rfl
      rw [Pass.loop_go (by simp only [hrun, hs]; simp [consolePass, ConsoleSpec.args]), hrun, hs]
      have ih := consoleLoop_opts hK cur' rest ⟨cur' ++ rest, v.tok, v.text, v.line⟩
        (c.apply o) (fun t ht => hcur t (by simp [ht])) hrest rfl
      simp only [consoleOpts, ho]
      cases h : consoleOpts cur' <;> simp only [h, Option.map_some', Option.map_none'] at ih ⊢
      · exact ih
      · simpa using ih
    · have hd := consoleOption_not_done (K := K) (s := c.args K) (l := l)
        (by rw [hnext]; exact hk) (by rw [hnext]; exact k.not_eof)
      have he : (consoleOption K l (c.args K)).2.1.err ≠ "" := by
        intro he
        obtain ⟨k', e, v, ts', o, hr, ho⟩ := consoleOption_wellFormed hK hd he
        rw [hl, List.cons_append, List.cons.injEq] at hr
        obtain ⟨rfl, hts⟩ := hr
        obtain ⟨he', hv'⟩ := consoleOpt_some_tok ho
        refine hgood ?_
        match ts, hts with
        | [], hts =>
          rw [List.nil_append] at hts
          exact absurd (hrest e (by simp [hts])) he'
        | [e'], hts =>
          simp only [List.singleton_append, List.cons.injEq] at hts
          exact absurd (hrest v (by simp [hts.2])) hv'
        | e' :: v' :: cur', hts =>
          simp only [List.cons_append, List.cons.injEq] at hts
          obtain ⟨rfl, rfl, -⟩ := hts
          exact ⟨e', v', cur', o, rfl, ho⟩
      have hbad : consoleOpts (k :: ts) = none := by
        match ts, hgood with
        | [], _ => rfl
        | [_], _ => rfl
        | e :: v :: cur', hgood =>
          have : consoleOpt k e v = none := by
            cases h : consoleOpt k e v with
            | none => rfl
            | some o => exact absurd ⟨e, v, cur', o, rfl, h⟩ hgood
          simp [consoleOpts, this]
      rw [Pass.loop_stop (by right; exact he)]
      simp only [hbad]
      exact he

/-- **`create_console_obj`'s asserts hold** for the name and device of a line that is taken,
and the objects the line creates are the console and, for a `LOG`, its logfile. -/
theorem registerConsole_eq {K : Consts} (io : LogOpens) {conf : ServerConfig} {name dev : String}
    (log : String) (bps : Int) (hn : name ≠ "") (hd : dev ≠ "") :
    registerConsole K io conf name dev log bps = .ok (conf.withConsole K io name dev log bps) := by
  simp only [registerConsole, createConsoleObj, assertC_of hn, assertC_of hd, pure_bind,
    ne_eq, not_true_eq_false, if_false]
  unfold ServerConfig.withConsole
  split_ifs with hl
  · rfl
  · set c := conf.heap.fresh
    set con := createObj name (.console dev .uninitialized .uninitialized bps)
    set lf := createObj log .logfile
    have hne : c ≠ c + 1 := Nat.ne_of_lt (Nat.lt_succ_self _)
    have e1 : (conf.heap.alloc con).2 = c := rfl
    have e2 : ((conf.heap.alloc con).1.alloc lf).2 = c + 1 := rfl
    have hso : ((conf.heap.alloc con).1.alloc lf).1.objs c = some con := by simp [Heap.alloc, hne]
    have hlf : ((conf.heap.alloc con).1.alloc lf).1.objs (c + 1) = some lf := by simp [Heap.alloc]
    simp only [createLogfileObj, e1, e2]
    rw [createObjLink_logfile K.maxBufSize_pos 0 _ _ hne hso rfl hlf rfl rfl
      (show (-1 : Int) < 0 by decide) rfl rfl]
    simp only [bind, Except.bind, pure, Except.pure, Except.ok.injEq, ServerConfig.mk.injEq,
      List.append_assoc, List.singleton_append, true_and, Heap.set, Heap.alloc, Heap.mk.injEq,
      and_true]
    funext q
    by_cases h1 : q = c + 1
    · simp [h1, con, lf, createObj]
    · by_cases h2 : q = c
      · simp [h1, h2, con, createObj]
      · simp [h1, h2]

/-- `parse_console_directive` on a line that asks for the console `c` creates it, and on
any other line prints one diagnostic and changes nothing. -/
theorem parseConsoleDirective_ofLine {K : Consts} (hK : 2 ≤ K.maxLine) (io : LogOpens) (l : Lex)
    (conf : ServerConfig) (cur rest : List Token) (hcur : ∀ t ∈ cur, t.tok ≠ .eol)
    (hrest : ∀ t ∈ rest.head?, t.tok = .eol) (hl : l.rest = cur ++ rest) :
    match ConsoleSpec.ofLine K cur with
    | some c => (parseConsoleDirective K io l conf).2 =
        .ok (conf.withConsole K io (K.fit c.name) (K.fit c.dev) (K.fit c.log) c.bps, [])
    | none => ∃ d, (parseConsoleDirective K io l conf).2 = .ok (conf, [d]) := by
  have hinit : (⟨"", "", "", "", K.defaultConsoleBaud⟩ : ConsoleArgs) =
      (ConsoleSpec.mk "" "" "" K.defaultConsoleBaud).args K := by
    simp only [ConsoleSpec.args, Consts.fit_empty]
  have hloop := consoleLoop_opts hK cur rest l ⟨"", "", "", K.defaultConsoleBaud⟩ hcur hrest hl
  unfold parseConsoleDirective consoleLoop ConsoleSpec.ofLine
  rw [hinit]
  cases h : consoleOpts cur with
  | none =>
    simp only [h, Option.none_bind] at hloop ⊢
    have hc : ∀ d, (ConsoleArgs.complete K d ((consolePass K).loop l
        ((ConsoleSpec.mk "" "" "" K.defaultConsoleBaud).args K)).2).err ≠ "" := by
      intro d; unfold ConsoleArgs.complete; rw [if_neg (fun h => hloop h.1)]; exact hloop
    exact ⟨_, by rw [if_pos (hc _)]; rfl⟩
  | some os =>
    simp only [h, Option.some_bind] at hloop ⊢
    rw [hloop]
    set c := os.foldl ConsoleSpec.apply ⟨"", "", "", K.defaultConsoleBaud⟩
    have hcomp : ConsoleArgs.complete K l.prev.kwStr (c.args K) =
        if c.name = "" ∨ c.dev = "" then { c.args K with err := K.fit (Msg.incomplete l.prev.kwStr) }
        else c.args K := by
      unfold ConsoleArgs.complete
      simp only [ConsoleSpec.args, Consts.fit_eq_empty hK, true_and]
    by_cases hbad : c.name = "" ∨ c.dev = ""
    · simp only [if_pos hbad]
      exact ⟨_, by
        rw [hcomp, if_pos hbad, if_pos ((Consts.fit_eq_empty hK).not.mpr (Msg.incomplete_ne _))]
        rfl⟩
    · simp only [if_neg hbad]
      rw [hcomp, if_neg hbad, if_neg (by simp [ConsoleSpec.args])]
      rw [not_or] at hbad
      simp only [ConsoleSpec.args]
      rw [registerConsole_eq io _ _ ((Consts.fit_eq_empty hK).not.mpr hbad.1)
        ((Consts.fit_eq_empty hK).not.mpr hbad.2)]
      rfl

end Conman
