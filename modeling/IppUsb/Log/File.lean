import IppUsb.Log.Output
import IppUsb.Log.Rotate
import Mathlib.Data.List.Pairwise

/-!
# The log file over a run

In file mode `l.out` is the log, opened by `Flush` with `os.O_APPEND`.  Each `Flush` of the
root that reaches it calls `rotate`, then hands each line of its loop to `outhook`, which
appends it to the file: one write-out per such `Flush`, its lines stamped with the one
`fmtTime()` of that flush.  `rotate` may empty the log (the log's size, `file.Stat()` and
`gzip` decide), so the file holds the write-outs since it was last emptied, after its content
from before the run if it never was.

* `Logger.stepWrite`, `Logger.step_output`   the root's lines a step's `Flush` hands to a
                                 working `l.out`; their lines of a level in `levels` are
                                 exactly the lines the step writes;
* `Logger.fileWrite`             the same in file mode: the write-out on the log file;
* `FileEnv`, `fileRun`           a run with its files, each write-out `flushFiles` of the bytes
                                 of the loop, with the clock, `file.Stat()` and `gzip` of its
                                 step;
* `fileWrites`                   the write-outs of a run on the log, each with its clock;
* `logFile_times`                after every run the log is its old content or nothing, then
                                 the last write-outs, the last one always among them; they
                                 split into one piece per line, each with its flush's clock;
* `Logger.Inv.block_infix_write`  a write-out that writes a line of a child committed
                                 without a `Flush` writes all of the child's lines, together;
* `hexDump_block_in_file`        right after it the log holds a hex dump committed so as
                                 consecutive lines that read back as the data.
-/

namespace IppUsb

open scoped List

namespace Logger

/-! ## what a step hands to `l.out` -/

/-- the root's lines, when `Flush` of the root hands them to a working `l.out`: the logger is
not paused, and `l.out` is a working writer, or nil in file mode with this flush's
`os.OpenFile` succeeding (`opens`) -/
def rootWrite (l : Logger) (opens : Bool) : Option (List LogLine) :=
  if l.paused = 0 ∧ (l.out = .writer ∨ l.out = .nil ∧ l.mode = .file ∧ opens = true) then
    some l.root
  else none

/-- the lines `msg.Flush()` hands to a working `l.out`: the root's, after a nested message
whose parent is the root moved its lines there -/
def flushWrite (l : Logger) (opens : Bool) : MsgId → Option (List LogLine)
  | .root => if l.root = [] then none else l.rootWrite opens
  | .nested i =>
    if (l.msgs i).lines = [] then none
    else if (l.msgs i).parent = .root then (l.moveUp i).rootWrite opens
    else none

/-- the lines a step hands to a working `l.out`, if it does: those of its `Flush`, or of the
`Flush` of its `Commit` -/
def stepWrite (l : Logger) : LogAct → Option (List LogLine)
  | .flush m opens => if l.live m then l.flushWrite opens m else none
  | .commit i opens => if (l.msgs i).live then l.flushWrite opens (.nested i) else none
  | _ => none

/-- the write-out of a step on the log file: what it hands to `l.out` in file mode -/
def fileWrite (l : Logger) (a : LogAct) : Option (List LogLine) :=
  if l.mode = .file then l.stepWrite a else none

theorem flushRoot_output (l : Logger) (opens : Bool) :
    (l.flushRoot opens).output = l.output ++ ((l.rootWrite opens).getD []).filter l.own := by
  unfold flushRoot rootWrite
  by_cases hp : l.paused = 0
  · cases ho : l.out <;> cases hm : l.mode <;> cases opens <;> simp [hp, ho, hm]
  · simp [hp]

theorem flush_output (l : Logger) (opens : Bool) (m : MsgId) :
    (l.flush opens m).output = l.output ++ ((l.flushWrite opens m).getD []).filter l.own := by
  cases m with
  | root =>
    simp only [flush, flushWrite]
    split
    · exact (List.append_nil _).symm
    · exact flushRoot_output l opens
  | nested i =>
    simp only [flush, flushWrite]
    split_ifs
    · exact (List.append_nil _).symm
    · exact flushRoot_output (l.moveUp i) opens
    · exact (List.append_nil _).symm

/-- **What a step writes is what its `Flush` hands to `l.out`.**  In every mode, the lines a
step writes are, in order, those of a level in `levels` among the root's lines its `Flush`
hands to a working `l.out`. -/
theorem step_output (l : Logger) (a : LogAct) :
    (l.step a).output = l.output ++ ((l.stepWrite a).getD []).filter l.own := by
  cases a with
  | flush m opens =>
    simp only [step, stepWrite]
    split
    · exact flush_output l opens m
    · exact (List.append_nil _).symm
  | commit i opens =>
    simp only [step, stepWrite]
    split
    · simp only [commit]
      split
      · exact flush_output l opens (.nested i)
      · exact flush_output { l with blocks := l.blocks ++ [(l.msgs i).lines] } opens (.nested i)
    · exact (List.append_nil _).symm
  | begin m | add m level | reject i =>
    simp only [step, stepWrite]; split <;> exact (List.append_nil _).symm
  | _ => exact (List.append_nil _).symm

theorem fileWrite_eq_some {l : Logger} {a : LogAct} {r : List LogLine} (h : l.fileWrite a = some r) :
    l.mode = .file ∧ l.stepWrite a = some r := by
  unfold fileWrite at h
  split at h
  · exact ⟨‹_›, h⟩
  · cases h

/-! ## the lines a write-out loops over -/

theorem rootWrite_eq {l : Logger} {opens : Bool} {r : List LogLine} (h : l.rootWrite opens = some r) :
    r = l.root := by
  unfold rootWrite at h
  split at h
  · exact (Option.some.inj h).symm
  · cases h

theorem moveUp_root {l : Logger} {i : Nat} (hp : (l.msgs i).parent = .root) :
    (l.moveUp i).root = l.root ++ (l.msgs i).lines := by
  simp [moveUp, setLines, hp, lines]

/-- a write-out loops over the root's lines, after those a nested message moved there -/
theorem flushWrite_eq {l : Logger} {opens : Bool} {m : MsgId} {r : List LogLine}
    (h : l.flushWrite opens m = some r) :
    m = .root ∧ r = l.root ∨ ∃ i, m = .nested i ∧ r = l.root ++ (l.msgs i).lines := by
  cases m with
  | root =>
    simp only [flushWrite] at h
    split at h
    · cases h
    · exact .inl ⟨rfl, rootWrite_eq h⟩
  | nested i =>
    simp only [flushWrite] at h
    split_ifs at h with h1 h2
    exact .inr ⟨i, rfl, (rootWrite_eq h).trans (moveUp_root h2)⟩

theorem flushRoot_blocks (l : Logger) (opens : Bool) : (l.flushRoot opens).blocks = l.blocks := by
  unfold flushRoot; split
  · rfl
  · split <;> rfl

theorem flush_blocks (l : Logger) (opens : Bool) (m : MsgId) : (l.flush opens m).blocks = l.blocks := by
  cases m with
  | root =>
    simp only [flush]
    split
    · rfl
    · exact flushRoot_blocks l opens
  | nested i =>
    simp only [flush]
    split_ifs
    · rfl
    · exact flushRoot_blocks (l.moveUp i) opens
    · rfl

theorem commit_blocks (l : Logger) (i : Nat) (opens : Bool) :
    (l.commit i opens).blocks =
      if (l.msgs i).flushed then l.blocks else l.blocks ++ [(l.msgs i).lines] := by
  simp only [commit]
  split
  · exact flush_blocks l opens (.nested i)
  · exact flush_blocks _ opens (.nested i)

/-! ## a committed child is written in one write-out -/

/-- a buffered line is not written, lost or rejected -/
theorem Inv.not_mem_of_buffered {l : Logger} (h : l.Inv) {y : LogLine} (hy : y ∈ l.buffered) :
    y ∉ l.output ∧ y ∉ l.lost ∧ y ∉ l.rejected := by
  have hd := List.disjoint_of_nodup_append (h.perm.nodup_iff.mp h.nodup)
  exact ⟨fun ho => hd (by simp [ho]) hy, fun hl => hd (by simp [hl]) hy, fun hr => hd (by simp [hr]) hy⟩

theorem Inv.lt_of_mem {l : Logger} (h : l.Inv) {y : LogLine} {j : Nat} (hy : y ∈ (l.msgs j).lines) :
    j < l.next := by
  by_contra hj
  simp [h.blank j (by omega), LogMsg.blank] at hy

/-- a line is in the buffer of one message at most -/
theorem Inv.lines_unique {l : Logger} (h : l.Inv) {y : LogLine} {m m' : MsgId} (hm : y ∈ l.lines m)
    (hm' : y ∈ l.lines m') : m = m' := by
  have hnd : l.buffered.Nodup := (List.nodup_append.mp (h.perm.nodup_iff.mp h.nodup)).2.1
  have hroot : ∀ j, y ∈ l.root → y ∉ (l.msgs j).lines := fun j hr hj =>
    List.disjoint_of_nodup_append hnd hr
      (List.mem_flatMap.mpr ⟨j, List.mem_range.mpr (h.lt_of_mem hj), hj⟩)
  cases m with
  | root => cases m' with
    | root => rfl
    | nested j => exact absurd hm' (hroot j hm)
  | nested i => cases m' with
    | root => exact absurd hm (hroot i hm')
    | nested j =>
      by_contra hij
      have hne : i ≠ j := fun he => hij (he ▸ rfl)
      have hp := (List.nodup_flatMap.mp (List.nodup_append.mp hnd).2.1).2
      exact hp.forall (fun _ _ h => List.disjoint_comm.mp h) (List.mem_range.mpr (h.lt_of_mem hm))
        (List.mem_range.mpr (h.lt_of_mem hm')) hne hm hm'

/-- a recorded block of lines of levels in `levels` with a line among those a write-out loops
over lies whole among them -/
theorem Inv.block_infix_root {l : Logger} (h : l.Inv) {b : List LogLine} (hb : b ∈ l.blocks)
    (hown : ∀ y ∈ b, l.own y = true) {x : LogLine} (hxb : x ∈ b) {r : List LogLine}
    (hr : r = l.root ∨ ∃ i, r = l.root ++ (l.msgs i).lines) (hx : x ∈ r) : b <:+: r := by
  -- the line is in the root, or in the buffer the write-out moved up
  have hin : x ∈ l.root ∨ ∃ i, r = l.root ++ (l.msgs i).lines ∧ x ∈ (l.msgs i).lines := by
    rcases hr with rfl | ⟨i, rfl⟩
    · exact .inl hx
    · rcases List.mem_append.mp hx with hx | hx
      · exact .inl hx
      · exact .inr ⟨i, rfl, hx⟩
  have hbuf : x ∈ l.buffered := by
    rcases hin with hx | ⟨i, -, hx⟩
    · exact h.mem_buffered (show x ∈ l.lines .root from hx)
    · exact h.mem_buffered (show x ∈ l.lines (.nested i) from hx)
  have hnot := h.not_mem_of_buffered hbuf
  have hxo : x ∈ b.filter l.own := List.mem_filter.mpr ⟨hxb, hown x hxb⟩
  rcases h.blocks b hb with ⟨m, hm⟩ | ho | hl | hrj
  · rcases hin with hx' | ⟨i, rfl, hx'⟩
    · obtain rfl := h.lines_unique (hm.subset hxb) (show x ∈ l.lines .root from hx')
      rcases hr with rfl | ⟨i, rfl⟩
      · exact hm
      · exact hm.trans (List.prefix_append _ _).isInfix
    · obtain rfl := h.lines_unique (hm.subset hxb) (show x ∈ l.lines (.nested i) from hx')
      exact hm.trans (List.suffix_append _ _).isInfix
  · exact absurd (ho.subset hxo) hnot.1
  · exact absurd (hl.subset hxo) hnot.2.1
  · exact absurd (hrj.subset hxb) hnot.2.2

/-- a step that hands lines to `l.out` does so by the `Flush` of a message `m`; a block it records
is the lines of `m` -/
theorem stepWrite_eq_some {l : Logger} {a : LogAct} {r : List LogLine} (hw : l.stepWrite a = some r) :
    ∃ opens m, l.flushWrite opens m = some r ∧
      ∀ b ∈ (l.step a).blocks, b ∈ l.blocks ∨ ∃ i, m = .nested i ∧ b = (l.msgs i).lines := by
  cases a with
  | flush m opens =>
    simp only [stepWrite] at hw
    split at hw
    · refine ⟨opens, m, hw, fun b hb => .inl ?_⟩
      rwa [Logger.step, if_pos ‹_›, flush_blocks] at hb
    · cases hw
  | commit i opens =>
    simp only [stepWrite] at hw
    split at hw
    · refine ⟨opens, .nested i, hw, fun b hb => ?_⟩
      rw [Logger.step, if_pos ‹_›, commit_blocks] at hb
      split at hb
      · exact .inl hb
      · rcases List.mem_append.mp hb with hb | hb
        · exact .inl hb
        · exact .inr ⟨i, rfl, List.mem_singleton.mp hb⟩
    · cases hw
  | _ => cases hw

/-- **A committed child is written in one write-out.**  In every state a run reaches, when a
step hands to `l.out` a line of a child committed without an earlier `Flush` (its `Commit`
may be that step), all of whose lines are of levels in `levels`, the lines it hands on hold
all of the child's lines, together. -/
theorem Inv.block_infix_write {l : Logger} (h : l.Inv) (a : LogAct) {b : List LogLine}
    (hb : b ∈ (l.step a).blocks) (hown : ∀ y ∈ b, l.own y = true) {x : LogLine} (hxb : x ∈ b)
    (hx : x ∈ (l.stepWrite a).getD []) : b <:+: (l.stepWrite a).getD [] := by
  cases hw : l.stepWrite a with
  | none => rw [hw] at hx; cases hx
  | some r =>
    rw [hw] at hx
    obtain ⟨opens, m, hf, hbl⟩ := stepWrite_eq_some hw
    rcases flushWrite_eq hf with ⟨rfl, hr⟩ | ⟨i, rfl, hr⟩
    · rcases hbl b hb with hb | ⟨i, hi, -⟩
      · exact h.block_infix_root hb hown hxb (.inl hr) hx
      · cases hi
    · rcases hbl b hb with hb | ⟨j, hj, rfl⟩
      · exact h.block_infix_root hb hown hxb (.inr ⟨i, hr⟩) hx
      · cases hj
        rw [hr]
        exact (List.suffix_append _ _).isInfix

end Logger

/-! ## the files over a run -/

/-- what the write-outs on the log meet: the settings `rotate` reads, the compression of
`gzip`, and at the `k`-th step of a run the clock `time.Now()` reads, whether `file.Stat()`
succeeds, and which step of `gzip` fails, if one does -/
structure FileEnv where
  conf : Conf
  compress : List UInt8 → List UInt8
  clock : Nat → Clock
  statOk : Nat → Bool
  fault : Nat → Option GzipFault

/-- the bytes the loop of `Flush` hands to `outhook` over the lines `r`, with the time prefix
of the clock `t`: each `buf.Bytes()` in turn -/
def loopBytes (levels : Nat) (txt : Nat → List UInt8) (t : Clock) (r : List LogLine) : List UInt8 :=
  ((flushLoop levels (fmtTime .file t) [] (r.map (LogLine.buf txt))).written.map Prod.snd).flatten

/-- a write-out as the file receives it: each of its lines rendered with the clock of its
flush -/
def writeOutBytes (txt : Nat → List UInt8) (w : Clock × List LogLine) : List UInt8 :=
  w.2.flatMap fun x => renderLine (fmtTime .file w.1) (txt x.id)

/-- the files after the `k`-th step `a` of a run, taken by the logger `l`: a write-out on the
log is `rotate` and then the bytes of the loop appended, with the clock, `file.Stat()` and
`gzip` of that step -/
def fileStep (env : FileEnv) (txt : Nat → List UInt8) (k : Nat) (l : Logger) (a : Logger.LogAct)
    (fs : Fs) : Fs :=
  match l.fileWrite a with
  | some r => flushFiles env.conf (env.statOk k) env.compress (env.fault k)
      (loopBytes l.levels txt (env.clock k) r) fs
  | none => fs

/-- the files after the steps of a run from its `k`-th on -/
def fileRun (env : FileEnv) (txt : Nat → List UInt8) : Nat → Logger → Fs → List Logger.LogAct → Fs
  | _, _, fs, [] => fs
  | k, l, fs, a :: acts => fileRun env txt (k + 1) (l.step a) (fileStep env txt k l a fs) acts

/-- the write-outs on the log of the steps of a run from its `k`-th on, each with the clock
of its flush and the lines it writes, those of a level in `levels` -/
def fileWrites (clock : Nat → Clock) : Nat → Logger → List Logger.LogAct → List (Clock × List LogLine)
  | _, _, [] => []
  | k, l, a :: acts =>
    ((l.fileWrite a).map fun r => (clock k, r.filter l.own)).toList ++
      fileWrites clock (k + 1) (l.step a) acts

theorem loopBytes_eq (l : Logger) (txt : Nat → List UInt8) (t : Clock) (r : List LogLine) :
    loopBytes l.levels txt t r = writeOutBytes txt (t, r.filter l.own) := by
  rw [loopBytes, flushLoop_buf, List.map_map]
  rfl

theorem fileRun_append (env : FileEnv) (txt : Nat → List UInt8) (k : Nat) (l : Logger) (fs : Fs)
    (acts acts' : List Logger.LogAct) :
    fileRun env txt k l fs (acts ++ acts') =
      fileRun env txt (k + acts.length) (l.run acts) (fileRun env txt k l fs acts) acts' := by
  induction acts generalizing k l fs with
  | nil => rfl
  | cons a acts ih =>
    rw [List.cons_append, fileRun, ih, fileRun, Logger.run_cons, List.length_cons,
      Nat.add_right_comm, Nat.add_assoc]

theorem fileWrites_append (clock : Nat → Clock) (k : Nat) (l : Logger) (acts acts' : List Logger.LogAct) :
    fileWrites clock k l (acts ++ acts') =
      fileWrites clock k l acts ++ fileWrites clock (k + acts.length) (l.run acts) acts' := by
  induction acts generalizing k l with
  | nil => rfl
  | cons a acts ih =>
    rw [List.cons_append, fileWrites, ih, fileWrites, Logger.run_cons, List.length_cons,
      List.append_assoc, Nat.add_right_comm, Nat.add_assoc]

/-- the log after a step: the log `rotate` left, then the bytes of the write-out -/
theorem fileStep_log (env : FileEnv) (txt : Nat → List UInt8) (k : Nat) (l : Logger) (a : Logger.LogAct)
    (fs : Fs) {r : List LogLine} (hr : l.fileWrite a = some r) :
    ((fileStep env txt k l a fs).files .log).getD [] =
      ((rotate env.conf (env.statOk k) env.compress (env.fault k) fs).files .log).getD [] ++
        writeOutBytes txt (env.clock k, r.filter l.own) := by
  simp [fileStep, hr, flushFiles, loopBytes_eq]

theorem writeOutBytes_getLast (txt : Nat → List UInt8) (w : Clock × List LogLine) :
    ∀ c ∈ (writeOutBytes txt w).getLast?, c = 10 :=
  getLast?_flatMap_sep 10 w.2 fun x => fileLine (fmtTime .file w.1) (txt x.id)

/-- `rotate` keeps a log missing, empty, or ended by a `'\n'` so -/
theorem rotate_getLast (conf : Conf) (statOk : Bool) (compress : List UInt8 → List UInt8)
    (fault : Option GzipFault) (fs : Fs) (h : ∀ c ∈ ((fs.files .log).getD []).getLast?, c = 10) :
    ∀ c ∈ (((rotate conf statOk compress fault fs).files .log).getD []).getLast?, c = 10 := by
  rcases rotate_log_cases conf statOk compress fault fs with he | he <;> rw [he]
  · exact h
  · intro c hc; cases hc

/-- the log stays missing, empty, or ended by a `'\n'` -/
theorem fileRun_getLast (env : FileEnv) (txt : Nat → List UInt8) (k : Nat) (l : Logger) (fs : Fs)
    (acts : List Logger.LogAct) (h : ∀ c ∈ ((fs.files .log).getD []).getLast?, c = 10) :
    ∀ c ∈ (((fileRun env txt k l fs acts).files .log).getD []).getLast?, c = 10 := by
  induction acts generalizing k l fs with
  | nil => exact h
  | cons a acts ih =>
    refine ih _ _ _ ?_
    cases hr : l.fileWrite a with
    | none => simpa [fileStep, hr] using h
    | some r =>
      rw [fileStep_log env txt k l a fs hr]
      exact getLast?_append_of (rotate_getLast _ _ _ _ fs h) (writeOutBytes_getLast txt _)

/-- what the loop writes on the log are lines the message model writes, in order -/
theorem fileWrites_sublist (clock : Nat → Clock) (k : Nat) (l : Logger) (acts : List Logger.LogAct) :
    l.output ++ (fileWrites clock k l acts).flatMap Prod.snd <+ (l.run acts).output := by
  induction acts generalizing k l with
  | nil => simp [fileWrites]
  | cons a acts ih =>
    have hstep : l.output ++ ((l.fileWrite a).map fun r => (clock k, r.filter l.own)).toList.flatMap
        Prod.snd <+ (l.step a).output := by
      rw [l.step_output a]
      unfold Logger.fileWrite
      split
      · cases l.stepWrite a <;> simp
      · simp
    rw [fileWrites, List.flatMap_append, ← List.append_assoc]
    exact (hstep.append_right _).trans (ih (k + 1) (l.step a))

/-- the log after a run: its content before, or nothing, then the bytes of the last
write-outs; the write-outs before them were emptied by a `rotate` -/
theorem fileRun_log (env : FileEnv) (txt : Nat → List UInt8) (l : Logger) (fs : Fs)
    (acts : List Logger.LogAct) :
    ∃ pre ws₁ ws₂, fileWrites env.clock 0 l acts = ws₁ ++ ws₂ ∧
      (pre = [] ∨ pre = (fs.files .log).getD [] ∧ ws₁ = []) ∧ (ws₂ = [] → ws₁ = []) ∧
      ((fileRun env txt 0 l fs acts).files .log).getD [] = pre ++ ws₂.flatMap (writeOutBytes txt) := by
  induction acts using List.reverseRecOn with
  | nil => exact ⟨_, [], [], rfl, .inr ⟨rfl, rfl⟩, fun _ => rfl, (List.append_nil _).symm⟩
  | append_singleton acts a ih =>
    obtain ⟨pre, ws₁, ws₂, hws, hpre, hlast, hlog⟩ := ih
    rw [fileWrites_append, fileRun_append, hws, Nat.zero_add]
    cases hr : (l.run acts).fileWrite a with
    | none =>
      refine ⟨pre, ws₁, ws₂, by simp [fileWrites, hr], hpre, hlast, ?_⟩
      simpa [fileRun, fileStep, hr] using hlog
    | some r =>
      let w := (env.clock acts.length, r.filter (l.run acts).own)
      have hw : fileWrites env.clock acts.length (l.run acts) [a] = [w] := by simp [fileWrites, hr, w]
      rw [hw, fileRun, fileRun, fileStep_log env txt _ _ a _ hr]
      rcases rotate_log_cases env.conf (env.statOk acts.length) env.compress
        (env.fault acts.length) (fileRun env txt 0 l fs acts) with he | he <;> rw [he]
      · exact ⟨pre, ws₁, ws₂ ++ [w], by simp, hpre, by simp, by simp [hlog]⟩
      · exact ⟨[], ws₁ ++ ws₂, [w], by simp, .inl rfl, by simp, by simp⟩

/-- written lines free of `'\n'` split back into one piece per line, each reading back as the
clock of its write-out -/
theorem writeOutBytes_times (txt : Nat → List UInt8) (ws : List (Clock × List LogLine))
    (hnl : ∀ w ∈ ws, ∀ x ∈ w.2, (10 : UInt8) ∉ txt x.id) :
    ((ws.flatMap (writeOutBytes txt)).splitOn 10).map readTime =
      (ws.flatMap fun w => w.2.map fun _ => some w.1) ++ [none] := by
  induction ws with
  | nil => simp [List.splitOn_nil]
  | cons w ws ih =>
    have hnot : ∀ x ∈ w.2, (10 : UInt8) ∉ fileLine (fmtTime .file w.1) (txt x.id) :=
      fun x hx => ten_not_mem_fileLine (ten_not_mem_fmtTime _ _) fun hm =>
        hnl w (List.mem_cons_self _ _) x hx ((trim_isPrefix _).subset hm)
    rw [List.flatMap_cons, writeOutBytes]
    simp only [renderLine]
    rw [splitOn_lines 10 w.2 _ hnot, List.map_append,
      ih fun w' hw' => hnl w' (List.mem_cons_of_mem _ hw')]
    simp [Function.comp_def, fileLine, readTime_fmtTime]

/-- **The log file through rotation.**  Over every run of the logger, from any state and any
files, whatever the clock, `file.Stat()` and `gzip` do: the log holds its content from before
the run, or nothing, and then the bytes of the last write-outs of the run, the last one always
among them (`rotate` runs before the lines are appended); the write-outs before those were
emptied by a `rotate`.  When no line written holds a `'\n'`, those bytes split at `'\n'` into
one piece per line, in order, then an empty piece, each piece's time prefix reading back as
the clock of the flush that wrote it.  The lines of the write-outs are, in order, lines the
message model writes. -/
theorem logFile_times (env : FileEnv) (txt : Nat → List UInt8) (l : Logger) (fs : Fs)
    (acts : List Logger.LogAct) (hnl : ∀ x ∈ (l.run acts).output, (10 : UInt8) ∉ txt x.id) :
    ∃ pre ws₁ ws₂, fileWrites env.clock 0 l acts = ws₁ ++ ws₂ ∧
      (pre = [] ∨ pre = (fs.files .log).getD [] ∧ ws₁ = []) ∧ (ws₂ = [] → ws₁ = []) ∧
      ((fileRun env txt 0 l fs acts).files .log).getD [] = pre ++ ws₂.flatMap (writeOutBytes txt) ∧
      ((ws₂.flatMap (writeOutBytes txt)).splitOn 10).map readTime =
        (ws₂.flatMap fun w => w.2.map fun _ => some w.1) ++ [none] ∧
      l.output ++ (ws₁ ++ ws₂).flatMap Prod.snd <+ (l.run acts).output := by
  obtain ⟨pre, ws₁, ws₂, hws, hpre, hlast, hlog⟩ := fileRun_log env txt l fs acts
  have hsub := fileWrites_sublist env.clock 0 l acts
  rw [hws] at hsub
  refine ⟨pre, ws₁, ws₂, hws, hpre, hlast, hlog, writeOutBytes_times txt ws₂ fun w hw x hx => ?_, hsub⟩
  refine hnl x (hsub.subset (List.mem_append_right _ ?_))
  exact List.mem_flatMap.mpr ⟨w, List.mem_append_right _ hw, hx⟩

/-- a file system with no file -/
def noFiles : Fs := ⟨fun _ => none⟩

/-- `rotate` at `LogMinFileSize` with one backup, a clock that reads 9 Nov 2026 12:00:00,
`file.Stat()` and `gzip` working -/
def steadyEnv : FileEnv :=
  ⟨⟨logMinFileSize, 1⟩, id, fun _ => ⟨9, 11, 2026, 12, 0, 0⟩, fun _ => true, fun _ => none⟩

theorem logFile_times_one :
    (∀ x ∈ ((Logger.new 1 0).run [.toFile, .add .root 1, .flush .root true]).output,
        (10 : UInt8) ∉ (fun _ => [65] : Nat → List UInt8) x.id) ∧
      ∃ pre ws₁ ws₂,
        fileWrites steadyEnv.clock 0 (Logger.new 1 0) [.toFile, .add .root 1, .flush .root true] =
          ws₁ ++ ws₂ ∧
        (pre = [] ∨ pre = (noFiles.files .log).getD [] ∧ ws₁ = []) ∧ (ws₂ = [] → ws₁ = []) ∧
        ((fileRun steadyEnv (fun _ => [65]) 0 (Logger.new 1 0) noFiles
            [.toFile, .add .root 1, .flush .root true]).files .log).getD [] =
          pre ++ ws₂.flatMap (writeOutBytes fun _ => [65]) ∧
        ((ws₂.flatMap (writeOutBytes fun _ => [65])).splitOn 10).map readTime =
          (ws₂.flatMap fun w => w.2.map fun _ => some w.1) ++ [none] ∧
        (Logger.new 1 0).output ++ (ws₁ ++ ws₂).flatMap Prod.snd <+
          ((Logger.new 1 0).run [.toFile, .add .root 1, .flush .root true]).output :=
  ⟨fun _ _ => by simp, logFile_times _ _ _ _ _ fun _ _ => by simp⟩

/-! ## a hex dump in the file -/

/-- **A hex dump can be read back from the log right after it is written.**  Over every run
of a logger, from a log that is missing, empty or ends with a `'\n'`, whatever the clock,
`file.Stat()` and `gzip` do: take a message committed without an earlier `Flush` whose lines
are those a `HexDump` of `data` added, at a level in `levels`, with a prefix other than
`'\n'`.  The step whose write-out on the log holds one of its lines leaves the log split at
`'\n'` holding, as consecutive lines, one line per 16 bytes of `data`; past its 21 bytes of
time prefix and space, each reads back as its bytes, and together they read back as `data`.
Lines of other messages may hold `'\n'`.  A later write-out may rotate the lines away. -/
theorem hexDump_block_in_file (env : FileEnv) (txt : Nat → List UInt8) (levels ccLevels lvl : Nat)
    (acts : List Logger.LogAct) (a : Logger.LogAct) (fs : Fs) (p : UInt8) (data : List UInt8) (b : List LogLine)
    (hb : b ∈ ((Logger.new levels ccLevels).run (acts ++ [a])).blocks)
    (hw : ∃ x ∈ b, x ∈ (((Logger.new levels ccLevels).run acts).fileWrite a).getD [])
    (hlvl : levels &&& lvl ≠ 0) (hblvl : ∀ x ∈ b, x.level = lvl)
    (htxt : b.map (fun x => txt x.id) = hexDump levels ccLevels lvl p data)
    (hclk : (env.clock acts.length).valid = true) (hp : p ≠ 10)
    (hfs : ∀ c ∈ ((fs.files .log).getD []).getLast?, c = 10) :
    ∃ rows, rows <:+: (((fileRun env txt 0 (Logger.new levels ccLevels) fs (acts ++ [a])).files
        .log).getD []).splitOn 10 ∧
      rows.length = (data.length + 15) / 16 ∧
      (rows.map fun r => readHexLine p (r.drop 21)).flatten = data := by
  set l := (Logger.new levels ccLevels).run acts with hl
  have h : l.Inv := (Logger.inv_new levels ccLevels).run acts
  have hdump : hexDump levels ccLevels lvl p data = hexRows p 0 data := if_neg (or_and_ne_zero hlvl)
  have hown : ∀ y ∈ b, l.own y = true := fun y hy => by
    simp [Logger.own, hl, Logger.run_levels, Logger.new, hblvl y hy, hlvl]
  obtain ⟨x, hxb, hx⟩ := hw
  obtain ⟨r, hr⟩ := Option.ne_none_iff_exists'.mp fun (h0 : l.fileWrite a = none) => by
    rw [h0] at hx; cases hx
  rw [hr] at hx
  have hsw := (Logger.fileWrite_eq_some hr).2
  -- the write-out holds the whole block, with the lines of other messages around it
  have hbr : b <:+: r := by
    have := h.block_infix_write a (by rwa [Logger.run_append] at hb) hown hxb (by rw [hsw]; exact hx)
    rwa [hsw] at this
  obtain ⟨pre, post, hpo⟩ := (List.filter_eq_self.mpr hown) ▸ hbr.filter l.own
  -- the log is what `rotate` left, empty or ended by a `'\n'`, then the write-out
  let t := env.clock acts.length
  let g := fun x : LogLine => fileLine (fmtTime .file t) (txt x.id)
  have hlog : ((fileRun env txt 0 (Logger.new levels ccLevels) fs (acts ++ [a])).files .log).getD [] =
      ((rotate env.conf (env.statOk acts.length) env.compress (env.fault acts.length)
        (fileRun env txt 0 (Logger.new levels ccLevels) fs acts)).files .log).getD [] ++
        (pre.flatMap (fun x => g x ++ [10]) ++
          (b.flatMap (fun x => g x ++ [10]) ++ post.flatMap fun x => g x ++ [10])) := by
    rw [fileRun_append, Nat.zero_add, fileRun, fileRun, fileStep_log env txt _ _ a _ hr, writeOutBytes,
      ← hpo, List.flatMap_append, List.flatMap_append, List.append_assoc]
    rfl
  have hlast := rotate_getLast env.conf (env.statOk acts.length) env.compress (env.fault acts.length)
    _ (fileRun_getLast env txt 0 (Logger.new levels ccLevels) fs acts hfs)
  -- each line of the block is a line of the dump
  have hrow : ∀ x ∈ b, ∃ off row, txt x.id = hexLine p off row ∧ 0 < row.length ∧ row.length ≤ 16 :=
    fun x hx => mem_hexRows (hdump ▸ htxt ▸ List.mem_map_of_mem _ hx)
  refine ⟨b.map g, ?_, ?_, ?_⟩
  · have hnot : ∀ x ∈ b, (10 : UInt8) ∉ g x := fun x hx => by
      obtain ⟨off, row, he, -, -⟩ := hrow x hx
      refine ten_not_mem_fileLine (ten_not_mem_fmtTime _ _) fun hm => ?_
      rw [he] at hm
      exact ten_not_mem_hexLine hp off row ((trim_isPrefix _).subset hm)
    obtain ⟨P, hP⟩ := splitOn_append_of_getLast 10 _ _ hlast
    rw [hlog, hP, splitOn_flatMap_sep, splitOn_lines 10 b g hnot]
    exact ⟨P ++ pre.flatMap fun x => (g x).splitOn 10, (post.flatMap fun x => g x ++ [10]).splitOn 10,
      by simp only [List.append_assoc]⟩
  · rw [List.length_map, ← List.length_map b (fun x => txt x.id), htxt, hdump]
    exact (hexRows_lines p 0 data).1
  · have hread : ∀ x ∈ b, readHexLine p ((g x).drop 21) = readHexLine p (trim (txt x.id)) :=
      fun x hx => by
        obtain ⟨off, row, he, h0, h16⟩ := hrow x hx
        simp only [g]
        rw [he, fileLine_hexLine hclk p off h0 h16]
    rw [List.map_map]
    refine (congrArg List.flatten (List.map_congr_left hread)).trans ?_
    have e : b.map (fun x => readHexLine p (trim (txt x.id))) =
        (b.map fun x => txt x.id).map fun s => readHexLine p (trim s) := by
      rw [List.map_map]; rfl
    rw [e, htxt, hdump]
    exact hexRows_read p (fun s => readHexLine p (trim s)) (fun _ _ h0 h => (hexLine_read p _ h0 h _
      (List.mem_cons_of_mem _ (List.mem_singleton_self _))).2) 0 data

/-- a run that dumps one byte into a message of its own: `ToFile`, `Begin`, the dump's one
line; its `Commit` is the next step -/
def dumpActs : List Logger.LogAct := [.toFile, .begin .root, .add (.nested 0) 1]

/-- the text of the run's lines: the dump's -/
def dumpText (k : Nat) : List UInt8 := (hexDump 1 0 1 0 [65]).getD k []

theorem hexDump_block_in_file_one :
    [⟨0, 1, .nested 0⟩] ∈ ((Logger.new 1 0).run (dumpActs ++ [.commit 0 true])).blocks ∧
      (∃ x ∈ [(⟨0, 1, .nested 0⟩ : LogLine)],
        x ∈ (((Logger.new 1 0).run dumpActs).fileWrite (.commit 0 true)).getD []) ∧
      1 &&& 1 ≠ 0 ∧ (∀ x ∈ [(⟨0, 1, .nested 0⟩ : LogLine)], x.level = 1) ∧
      [(⟨0, 1, .nested 0⟩ : LogLine)].map (fun x => dumpText x.id) = hexDump 1 0 1 0 [65] ∧
      (steadyEnv.clock dumpActs.length).valid = true ∧ (0 : UInt8) ≠ 10 ∧
      (∀ c ∈ ((noFiles.files .log).getD []).getLast?, c = 10) ∧
      ∃ rows, rows <:+: (((fileRun steadyEnv dumpText 0 (Logger.new 1 0) noFiles
          (dumpActs ++ [.commit 0 true])).files .log).getD []).splitOn 10 ∧
        rows.length = (([65] : List UInt8).length + 15) / 16 ∧
        (rows.map fun r => readHexLine 0 (r.drop 21)).flatten = [65] := by
  have hb : [⟨0, 1, .nested 0⟩] ∈ ((Logger.new 1 0).run (dumpActs ++ [.commit 0 true])).blocks := by
    decide
  have hw : ∃ x ∈ [(⟨0, 1, .nested 0⟩ : LogLine)],
      x ∈ (((Logger.new 1 0).run dumpActs).fileWrite (.commit 0 true)).getD [] :=
    ⟨_, List.mem_singleton_self _, by decide⟩
  have hdump : hexDump 1 0 1 0 [65] = [hexLine 0 0 [65]] := by
    rw [hexDump, if_neg (by decide), hexRows_pos 0 0 (by decide)]
    simp [hexRows_nil]
  have htxt : [(⟨0, 1, .nested 0⟩ : LogLine)].map (fun x => dumpText x.id) = hexDump 1 0 1 0 [65] := by
    simp [dumpText, hdump]
  have hfs : ∀ c ∈ ((noFiles.files .log).getD []).getLast?, c = 10 := by simp [noFiles]
  exact ⟨hb, hw, by decide, by decide, htxt, by decide, by decide, hfs,
    hexDump_block_in_file steadyEnv dumpText 1 0 1 dumpActs (.commit 0 true) noFiles 0 [65] _ hb hw
      (by decide) (by decide) htxt (by decide) (by decide) hfs⟩

end IppUsb
