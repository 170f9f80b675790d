import Mathlib.Logic.Function.Basic
import Mathlib.Data.List.Range

/-!
# Log rotation

A logger in file mode appends to the file `l.path`, and before each write-out `rotate` checks
its size.  Past `Conf.LogMaxFileSize` it shifts the backups: `path.(N-1).gz` is removed, and
for `i` from `N-1` down to `1`, `path.(i-1).gz` is renamed to `path.i.gz`.  Then `gzip`
compresses the log into `path.0.gz` and, if that worked, the log is truncated.  `os.Rename`
of a missing file fails and changes nothing, and every error of `os.Remove` and `os.Rename`
is ignored.  A failing `gzip` removes the output it may have started.

The file system is the content of each file, `none` when it does not exist.  Compression is a
function `compress` of the log's content; which step of `gzip` fails, if one does, is a
parameter.

* `Fs.remove`, `Fs.rename`     `os.Remove`, `os.Rename`, each with its effect lemma;
* `rotateLoop`, `rotate`       the loop of `rotate`, and `rotate` with `gzip`;
* `rotateLoop_eq`              the loop leaves `path.0.gz` missing and moves `path.j.gz` to
                               `path.(j+1).gz` for `j + 1 < N`;
* `rotate_spec`                with a successful `gzip`, the backups become
                               `[gzip(log), b0, …, b(N-2)]` and the log is emptied; with a
                               failed one the log is unchanged, but the backups still shift
                               and `path.0.gz` is missing; no other file changes;
* `rotate_gzip_failure`        a failed `gzip` loses the oldest backup and `path.0.gz`, with
                               `LogMaxFileSize` at its least value `LogMinFileSize`;
* `rotate_log_cases`           whatever `file.Stat()` and `gzip` do, the log is kept or emptied;
* `flushFiles`, `flushFiles_log`  a write-out in file mode, `rotate` and then the lines
                               appended: the log is its old content, or nothing once over the
                               limit, then the new lines, so it never passes the limit by more
                               than one write-out.
-/

namespace IppUsb

/-! ## the file system -/

/-- the files `rotate` touches: the log `l.path`, its backups
`fmt.Sprintf("%s.%d.gz", l.path, j)`, and any other file -/
inductive FileName
  | log
  | backup (j : Nat)
  | other (s : String)
  deriving DecidableEq

/-- the content of each file, `none` when it does not exist -/
@[ext] structure Fs where
  files : FileName → Option (List UInt8)

/-- `os.Remove(n)`; it fails, changing nothing, when `n` does not exist -/
def Fs.remove (fs : Fs) (n : FileName) : Fs := ⟨Function.update fs.files n none⟩

/-- `os.Rename(old, new)`; it fails, changing nothing, when `old` does not exist -/
def Fs.rename (fs : Fs) (old new : FileName) : Fs :=
  match fs.files old with
  | none => fs
  | some d => ⟨Function.update (Function.update fs.files old none) new (some d)⟩

/-- `os.OpenFile(n, os.O_WRONLY|os.O_TRUNC|os.O_CREATE, 0644)`, writing `d` and closing -/
def Fs.write (fs : Fs) (n : FileName) (d : List UInt8) : Fs :=
  ⟨Function.update fs.files n (some d)⟩

/-- `file.Truncate(0)` on the open file `n` -/
def Fs.truncate (fs : Fs) (n : FileName) : Fs :=
  ⟨Function.update fs.files n ((fs.files n).map fun _ => [])⟩

@[simp] theorem Fs.files_remove (fs : Fs) (n m : FileName) :
    (fs.remove n).files m = if m = n then none else fs.files m := by
  simp [remove, Function.update_apply]

/-- `os.Rename` onto a missing file: it takes the content of `old`, missing or not -/
theorem Fs.files_rename (fs : Fs) (old new m : FileName) (hne : old ≠ new)
    (hnew : fs.files new = none) :
    (fs.rename old new).files m =
      if m = new then fs.files old else if m = old then none else fs.files m := by
  unfold rename
  split <;> rename_i h <;> by_cases h1 : m = new <;> by_cases h2 : m = old <;>
    simp_all [Function.update_apply]

@[simp] theorem Fs.files_write (fs : Fs) (n m : FileName) (d : List UInt8) :
    (fs.write n d).files m = if m = n then some d else fs.files m := by
  simp [write, Function.update_apply]

@[simp] theorem Fs.files_truncate (fs : Fs) (n m : FileName) :
    (fs.truncate n).files m = if m = n then (fs.files n).map (fun _ => []) else fs.files m := by
  simp only [truncate, Function.update_apply]

/-! ## `rotate` -/

/-- the step of `gzip` that fails: `os.Open(ipath)`, `os.OpenFile(opath, ...)`,
`io.Copy(w, ifile)`, `w.Close()` or `ofile.Close()` -/
inductive GzipFault
  | openIn
  | openOut
  | copy
  | closeWriter
  | closeFile
  deriving DecidableEq

/-- `Logger.gzip(ipath, opath)`: the file system after it, and its error.  A fault after
`opath` was created ends with `os.Remove(opath)`. -/
def gzip (compress : List UInt8 → List UInt8) (fault : Option GzipFault) (ipath opath : FileName)
    (fs : Fs) : Fs × Option GzipFault :=
  match fs.files ipath, fault with
  | none, _ => (fs, some .openIn)
  | some _, some .openIn => (fs, some .openIn)
  | some _, some .openOut => (fs, some .openOut)
  | some _, some f => (fs.remove opath, some f)
  | some d, none => (fs.write opath (compress d), none)

/-- the loop of `rotate` over `i` from `n` down to `1`, with `i` iterations left:
`os.Remove(path.(n-1).gz)` first, then `os.Rename(path.(i-1).gz, path.i.gz)` -/
def rotateLoop (n : Nat) : Nat → Fs → Fs
  | 0, fs => fs
  | i + 1, fs =>
    rotateLoop n i (if i + 1 = n then fs.remove (.backup i) else fs.rename (.backup i) (.backup (i + 1)))

/-- the settings `rotate` reads -/
structure Conf where
  logMaxFileSize : Nat
  logMaxBackupFiles : Nat

/-- the size of the log file -/
def Fs.logSize (fs : Fs) : Nat := ((fs.files .log).getD []).length

/-- `Logger.rotate` in file mode, where `l.out` is the file opened on `l.path`; `statOk` says
whether `file.Stat()` succeeds -/
def rotate (conf : Conf) (statOk : Bool) (compress : List UInt8 → List UInt8)
    (fault : Option GzipFault) (fs : Fs) : Fs :=
  if !statOk || fs.logSize ≤ conf.logMaxFileSize then fs
  else if 0 < conf.logMaxBackupFiles then
    match gzip compress fault .log (.backup 0)
        (rotateLoop conf.logMaxBackupFiles conf.logMaxBackupFiles fs) with
    | (fs', some _) => fs'
    | (fs', none) => fs'.truncate .log
  else fs.truncate .log

/-! ## the loop -/

/-- the files once the loop has run its iterations from `n` down to `k + 1`: `path.k.gz` is
gone and `path.j.gz` holds the old `path.(j-1).gz` for `k < j < n` -/
def shiftedFrom (n k : Nat) (fs : Fs) : Fs :=
  ⟨fun
    | .backup j =>
      if j < k then fs.files (.backup j)
      else if j = k ∧ k < n then none
      else if j < n then fs.files (.backup (j - 1))
      else fs.files (.backup j)
    | m => fs.files m⟩

theorem shiftedFrom_self (n : Nat) (fs : Fs) : shiftedFrom n n fs = fs := by
  ext1; funext m
  cases m <;> simp only [shiftedFrom]; split_ifs <;> first | rfl | omega

theorem shiftedFrom_step (n k : Nat) (fs : Fs) (hk : k < n) :
    (if k + 1 = n then (shiftedFrom n (k + 1) fs).remove (.backup k)
      else (shiftedFrom n (k + 1) fs).rename (.backup k) (.backup (k + 1))) =
      shiftedFrom n k fs := by
  ext1; funext m
  split_ifs with hn
  · -- the first iteration: `path.(n-1).gz` removed
    rw [Fs.files_remove]
    rcases m with _ | j | s
    · rfl
    · rcases (by omega : j < k ∨ j = k ∨ k < j) with h | rfl | h
      · simp [shiftedFrom, h, Nat.ne_of_lt h, Nat.lt_succ_of_lt h]
      · simp [shiftedFrom, hk]
      · simp [shiftedFrom, Nat.ne_of_gt h, show ¬ j < k + 1 by omega, show ¬ j < k by omega,
          show ¬ j < n by omega, show ¬ k + 1 < n by omega]
    · rfl
  · -- a later one: `path.k.gz` renamed to `path.(k+1).gz`
    rw [Fs.files_rename _ _ _ _ (by simp) (by simp [shiftedFrom]; omega)]
    rcases m with _ | j | s
    · rfl
    · rcases (by omega : j < k ∨ j = k ∨ j = k + 1 ∨ k + 1 < j) with h | rfl | rfl | h
      · simp [shiftedFrom, h, Nat.ne_of_lt h, Nat.lt_succ_of_lt h, show j ≠ k + 1 by omega]
      · simp [shiftedFrom, hk]
      · simp [shiftedFrom, show k + 1 < n by omega, show ¬ k + 1 < k by omega]
      · simp [shiftedFrom, show j ≠ k + 1 by omega, show j ≠ k by omega, show ¬ j < k + 1 by omega,
          show ¬ j < k by omega]
    · rfl

theorem rotateLoop_shiftedFrom (n k : Nat) (fs : Fs) (hk : k ≤ n) :
    rotateLoop n k (shiftedFrom n k fs) = shiftedFrom n 0 fs := by
  induction k with
  | zero => rfl
  | succ k ih => rw [rotateLoop, shiftedFrom_step n k fs (by omega), ih (by omega)]

/-- the loop of `rotate`: `path.0.gz` missing, `path.j.gz` moved to `path.(j+1).gz` for
`j + 1 < n`, every other file as it was -/
theorem rotateLoop_eq (n : Nat) (fs : Fs) : rotateLoop n n fs = shiftedFrom n 0 fs := by
  simpa [shiftedFrom_self] using rotateLoop_shiftedFrom n n fs le_rfl

example : (rotateLoop 3 3 ⟨fun | .backup 0 => some [1] | .backup 2 => some [3] | _ => none⟩).files
    (.backup 1) = some [1] := by decide

/-! ## `rotate` -/

/-- the backups `path.0.gz`, …, `path.(n-1).gz` -/
def backups (fs : Fs) (n : Nat) : List (Option (List UInt8)) :=
  (List.range n).map fun j => fs.files (.backup j)

/-- a list of `n + 1` backups whose first is `x` and whose others are the first `n` of `fs` -/
theorem backups_shift (fs fs' : Fs) (n : Nat) (x : Option (List UInt8))
    (h0 : fs'.files (.backup 0) = x) (h : ∀ j < n, fs'.files (.backup (j + 1)) = fs.files (.backup j)) :
    backups fs' (n + 1) = x :: backups fs n := by
  simp only [backups, List.range_succ_eq_map, List.map_cons, List.map_map, h0, List.cons.injEq,
    true_and]
  exact List.map_congr_left fun j hj => h j (List.mem_range.mp hj)

@[simp] theorem shiftedFrom_zero_backup_zero (n : Nat) (fs : Fs) :
    (shiftedFrom (n + 1) 0 fs).files (.backup 0) = none := by
  simp [shiftedFrom]

@[simp] theorem shiftedFrom_zero_backup_succ (n j : Nat) (fs : Fs) :
    (shiftedFrom (n + 1) 0 fs).files (.backup (j + 1)) =
      if j < n then fs.files (.backup j) else fs.files (.backup (j + 1)) := by
  simp [shiftedFrom]

@[simp] theorem shiftedFrom_log (n k : Nat) (fs : Fs) :
    (shiftedFrom n k fs).files .log = fs.files .log := rfl

@[simp] theorem shiftedFrom_other (n k : Nat) (fs : Fs) (s : String) :
    (shiftedFrom n k fs).files (.other s) = fs.files (.other s) := rfl

theorem Fs.log_of_large {fs : Fs} {c : Nat} (hs : c < fs.logSize) :
    ∃ d, fs.files .log = some d := by
  cases h : fs.files .log
  · simp [Fs.logSize, h] at hs
  · exact ⟨_, rfl⟩

/-- `rotate` once the log is over the limit: the shift, then the compressed log in
`path.0.gz` and an empty log when `gzip` works -/
theorem rotate_of_large (conf : Conf) (compress : List UInt8 → List UInt8)
    (fault : Option GzipFault) (fs : Fs) (hN : 0 < conf.logMaxBackupFiles)
    (hs : conf.logMaxFileSize < fs.logSize) :
    rotate conf true compress fault fs =
      match fault with
      | none => ((shiftedFrom conf.logMaxBackupFiles 0 fs).write (.backup 0)
          (compress ((fs.files .log).getD []))).truncate .log
      | some _ => shiftedFrom conf.logMaxBackupFiles 0 fs := by
  obtain ⟨d, hd⟩ := Fs.log_of_large hs
  have hl : (shiftedFrom conf.logMaxBackupFiles 0 fs).files .log = some d := hd
  have hb : (shiftedFrom conf.logMaxBackupFiles 0 fs).files (.backup 0) = none := by
    simp [shiftedFrom, hN]
  simp only [rotate, Bool.not_true, Bool.false_or, decide_eq_true_eq, not_le.mpr hs, if_false,
    if_pos hN, rotateLoop_eq, gzip, hl, hd, Option.getD_some]
  rcases fault with _ | _ | _ | _ | _ | _ <;> try rfl
  all_goals (ext1; funext m; by_cases h : m = .backup 0 <;> simp [h, hb])

/-- **Log rotation.**  For every number `N = n + 1` of backups and every state of the log and of
the files around it: when the log is no larger than `LogMaxFileSize`, or `file.Stat()`
fails, nothing changes.  Otherwise no file other than the log and its `N` backups changes;
when `gzip` works, the backups `[b0, …, b(N-1)]` become `[gzip(log), b0, …, b(N-2)]` and the
log is emptied; when it fails, the log is as it was, but the backups have still shifted, to
`[none, b0, …, b(N-2)]`. -/
theorem rotate_spec (maxSize n : Nat) (statOk : Bool) (compress : List UInt8 → List UInt8)
    (fault : Option GzipFault) (fs : Fs) :
    ((statOk = false ∨ fs.logSize ≤ maxSize) →
      rotate ⟨maxSize, n + 1⟩ statOk compress fault fs = fs) ∧
    (statOk = true → maxSize < fs.logSize →
      (∀ m, m ≠ .log → (∀ j ≤ n, m ≠ .backup j) →
        (rotate ⟨maxSize, n + 1⟩ statOk compress fault fs).files m = fs.files m) ∧
      (fault = none →
        backups (rotate ⟨maxSize, n + 1⟩ statOk compress fault fs) (n + 1) =
          some (compress ((fs.files .log).getD [])) :: backups fs n ∧
        (rotate ⟨maxSize, n + 1⟩ statOk compress fault fs).files .log = some []) ∧
      (fault ≠ none →
        backups (rotate ⟨maxSize, n + 1⟩ statOk compress fault fs) (n + 1) =
          none :: backups fs n ∧
        (rotate ⟨maxSize, n + 1⟩ statOk compress fault fs).files .log = fs.files .log)) := by
  refine ⟨fun h => ?_, fun hst hs => ?_⟩
  · rcases h with rfl | h
    · simp [rotate]
    · simp [rotate, h]
  subst hst
  rw [rotate_of_large ⟨maxSize, n + 1⟩ compress fault fs (Nat.succ_pos n) hs]
  obtain ⟨d, hd⟩ := Fs.log_of_large hs
  have hother : ∀ m, m ≠ .log → (∀ j ≤ n, m ≠ .backup j) →
      (shiftedFrom (n + 1) 0 fs).files m = fs.files m := by
    rintro (_ | j | _) hm hj
    · exact absurd rfl hm
    · rcases j with _ | j
      · exact absurd rfl (hj 0 (Nat.zero_le n))
      · have hjn : ¬ j < n := fun hlt => hj (j + 1) hlt rfl
        simp [hjn]
    · simp
  rcases fault with _ | f
  · refine ⟨fun m hm hj => ?_, fun _ => ⟨backups_shift _ _ n _ (by simp) fun j hj => ?_, ?_⟩, nofun⟩
    · simp [hm, hj 0 (Nat.zero_le n), hother m hm hj]
    · simp [hj]
    · simp [hd]
  · exact ⟨hother, nofun, fun _ => ⟨backups_shift _ _ n _ (by simp) fun j hj => by simp [hj], by simp⟩⟩

/-- `LogMinFileSize`, the least value of the max-file-size parameter -/
def logMinFileSize : Nat := 16 * 1024

/-- a log one byte over `LogMinFileSize`, with one backup -/
def rotateFailFs : Fs :=
  ⟨fun | .log => some (List.replicate (logMinFileSize + 1) 0) | .backup 0 => some [1] | _ => none⟩

/-- **A failed `gzip` loses a backup.**  With `LogMaxFileSize` at its least value, one backup
and an output file that cannot be opened, `rotate` has already removed `path.0.gz` when `gzip`
fails. -/
theorem rotate_gzip_failure :
    rotateFailFs.files (.backup 0) = some [1] ∧
      (rotate ⟨logMinFileSize, 1⟩ true id (some .openOut) rotateFailFs).files (.backup 0) = none := by
  have hs : logMinFileSize < rotateFailFs.logSize := by simp [Fs.logSize, rotateFailFs]
  rw [rotate_of_large ⟨logMinFileSize, 1⟩ id (some .openOut) rotateFailFs Nat.one_pos hs]
  exact ⟨rfl, shiftedFrom_zero_backup_zero 0 rotateFailFs⟩

/-! ## a write-out in file mode -/

/-- `outhook` writing `d` to `l.out`, the file `n` opened with `os.O_APPEND`: `d` after what
`n` holds -/
def Fs.append (fs : Fs) (n : FileName) (d : List UInt8) : Fs :=
  ⟨Function.update fs.files n (some ((fs.files n).getD [] ++ d))⟩

@[simp] theorem Fs.files_append (fs : Fs) (n m : FileName) (d : List UInt8) :
    (fs.append n d).files m = if m = n then some ((fs.files n).getD [] ++ d) else fs.files m := by
  simp [append, Function.update_apply]

/-- what `Flush` of the root does to the files in file mode once `l.out` is the open log:
`rotate`, then the lines of the loop, `out`, appended -/
def flushFiles (conf : Conf) (statOk : Bool) (compress : List UInt8 → List UInt8)
    (fault : Option GzipFault) (out : List UInt8) (fs : Fs) : Fs :=
  (rotate conf statOk compress fault fs).append .log out

/-- whatever `file.Stat()` and `gzip` do, `rotate` leaves the log as it is or empties it -/
theorem rotate_log_cases (conf : Conf) (statOk : Bool) (compress : List UInt8 → List UInt8)
    (fault : Option GzipFault) (fs : Fs) :
    (rotate conf statOk compress fault fs).files .log = fs.files .log ∨
      (rotate conf statOk compress fault fs).files .log = some [] := by
  by_cases hr : statOk = true ∧ conf.logMaxFileSize < fs.logSize
  · obtain ⟨rfl, hs⟩ := hr
    obtain ⟨d, hd⟩ := Fs.log_of_large hs
    rcases Nat.eq_zero_or_pos conf.logMaxBackupFiles with hN | hN
    · exact .inr (by simp [rotate, not_le.mpr hs, hN, hd])
    · rw [rotate_of_large conf compress fault fs hN hs]
      rcases fault with _ | f
      · exact .inr (by simp [hd])
      · exact .inl rfl
  · refine .inl ?_
    have : (!statOk || decide (fs.logSize ≤ conf.logMaxFileSize)) = true := by
      cases statOk <;> simp_all
    simp [rotate, this]

/-- with `file.Stat()` and `gzip` working, `rotate` empties a log over the limit -/
theorem rotate_log (conf : Conf) (compress : List UInt8 → List UInt8) (fs : Fs) :
    (rotate conf true compress none fs).files .log =
      if fs.logSize ≤ conf.logMaxFileSize then fs.files .log else some [] := by
  split
  · rename_i h
    simp [rotate, h]
  · rename_i h
    obtain ⟨d, hd⟩ := Fs.log_of_large (not_le.mp h)
    rcases Nat.eq_zero_or_pos conf.logMaxBackupFiles with hN | hN
    · simp [rotate, h, hN, hd]
    · rw [rotate_of_large conf compress none fs hN (not_le.mp h)]
      simp [hd]

/-- **A write-out keeps the log bounded.**  With `file.Stat()` and `gzip` working, after a
`Flush` in file mode the log holds its old content, or nothing when it was over
`LogMaxFileSize`, followed by the lines written; so it is never larger than the limit plus
the bytes of that one write-out. -/
theorem flushFiles_log (conf : Conf) (compress : List UInt8 → List UInt8) (out : List UInt8)
    (fs : Fs) :
    (flushFiles conf true compress none out fs).files .log =
        some ((if fs.logSize ≤ conf.logMaxFileSize then (fs.files .log).getD [] else []) ++ out) ∧
      (flushFiles conf true compress none out fs).logSize ≤ conf.logMaxFileSize + out.length := by
  have hlog : (flushFiles conf true compress none out fs).files .log =
      some ((if fs.logSize ≤ conf.logMaxFileSize then (fs.files .log).getD [] else []) ++ out) := by
    simp only [flushFiles, Fs.append, Function.update_same, rotate_log]
    split <;> rfl
  refine ⟨hlog, ?_⟩
  simp only [Fs.logSize, hlog, Option.getD_some, List.length_append]
  split
  · omega
  · simp

end IppUsb
