import Mathlib.Logic.Function.Basic
import Mathlib.Data.List.Perm.Basic
import Mathlib.Data.List.Infix

/-!
# The logger and its messages

A `Logger` is its root `LogMessage` and the nested messages made by `Begin`.  `Add` appends a
line to a message when the line's level is in `levels | ccLevels`; on the root it appends
under the logger's lock and then calls `Flush`.  `Flush` of a nested message moves its lines to
the end of its parent's under the lock, and goes on to flush the root when the parent is the
root.  Flushing the root writes its lines of a level in `levels` to `l.out`, unless the logger
is paused or `l.out` is nil; in file mode it first opens the file when `l.out` is nil.
`Commit` is `Flush` and then gives the message back to the pool; `Reject` drops its lines.
`Pause` and `Resume` count with atomics, and `Resume` flushes the root when the count is back
to 0.

Each step below is one atomic step of the source: an append, a `Flush` under the lock, an
update of `paused`, or the setting of the destination.  The `Flush` that follows an `Add` to
the root, and the one in `Resume`, are steps of their own (`flush .root`), as in the source,
where the lock is released in between.  A step on a message after its `Commit` or `Reject`,
and a `Resume` with no `Pause` to match, change nothing: the source's callers do not make them.

`l.out` is an `io.Writer`.  When `os.OpenFile` fails it returns a nil `*os.File`; stored in
`l.out` that is a non-nil interface, so the test `msg.logger.out == nil` is false from then on,
and each `Write` to it fails (`badFile`).

* `MsgId`, `LogLine`, `LogMsg`, `Logger`   the state; ghost fields keep each line's message,
                                           what was written, lost or dropped, and the lines
                                           of each child committed without a `Flush`;
* `Logger.flush`, `Logger.step`            `LogMessage.Flush` and one step of any goroutine;
* `Logger.run`                             a whole interleaving.
-/

namespace IppUsb

/-! ## the state -/

/-- a message of the logger: its root message, or the nested message of the `i`-th `Begin` -/
inductive MsgId
  | root
  | nested (i : Nat)
  deriving DecidableEq

/-- a line of a message (a `logLineBuf`): its level, and two ghost fields, a number that tells
it from every other line and the message it was added to -/
structure LogLine where
  id : Nat
  level : Nat
  origin : MsgId
  deriving DecidableEq

/-- a nested `LogMessage`: its parent and its lines, `live` from its `Begin` to its `Commit`
or `Reject`; two ghost fields, the nested messages from the top one down to it, and whether a
`Flush` has moved its lines -/
structure LogMsg where
  parent : MsgId
  lines : List LogLine
  live : Bool
  path : List Nat
  flushed : Bool

/-- a message not made yet -/
def LogMsg.blank : LogMsg := ⟨.root, [], false, [], false⟩

/-- `l.mode` -/
inductive LoggerMode
  | noMode
  | discard
  | console
  | file
  deriving DecidableEq

/-- `l.out`: nil, a writer that works (`os.Stdout`, `ioutil.Discard`, an opened file), or the
nil `*os.File` of a failed `os.OpenFile` -/
inductive LogOut
  | nil
  | writer
  | badFile
  deriving DecidableEq

/-- a `Logger` with its root message `root`, and the nested messages `msgs i` for `i < next`;
ghost fields: the lines written to a working `l.out`, those handed to the nil `*os.File`,
those of a level outside `levels` that a flush of the root let go, those dropped by `Reject`,
every line added, in order, and the lines of each child at a `Commit` with no `Flush` before -/
structure Logger where
  levels : Nat
  ccLevels : Nat
  mode : LoggerMode
  out : LogOut
  paused : Nat
  root : List LogLine
  msgs : Nat → LogMsg
  next : Nat
  output : List LogLine
  lost : List LogLine
  discarded : List LogLine
  rejected : List LogLine
  handed : List LogLine
  blocks : List (List LogLine)

/-- `NewLogger()` after `SetLevels(levels)` and the `Cc` calls that made `ccLevels` -/
def Logger.new (levels ccLevels : Nat) : Logger :=
  ⟨levels, ccLevels, .noMode, .nil, 0, [], fun _ => .blank, 0, [], [], [], [], [], []⟩

namespace Logger

/-- the lines of message `m` -/
def lines (l : Logger) : MsgId → List LogLine
  | .root => l.root
  | .nested i => (l.msgs i).lines

/-- `m.lines = xs` -/
def setLines (l : Logger) (m : MsgId) (xs : List LogLine) : Logger :=
  { l with
    root := if m = .root then xs else l.root
    msgs := fun j => if m = .nested j then { (l.msgs j) with lines := xs } else l.msgs j }

/-- the nested messages from the top one down to `m` -/
def path (l : Logger) : MsgId → List Nat
  | .root => []
  | .nested i => (l.msgs i).path

/-- whether message `m` may be used: the root always, a nested message until its `Commit` or
`Reject` -/
def live (l : Logger) : MsgId → Bool
  | .root => true
  | .nested i => (l.msgs i).live

/-- `l.levels & line.level != 0`: the line goes to the logger's own output -/
def own (l : Logger) (x : LogLine) : Bool := l.levels &&& x.level != 0

/-! ## `Flush` -/

/-- `Flush` of the root from its test of `paused` on: in file mode a nil `l.out` is first
replaced by what `os.OpenFile` returns (`opens`: it succeeds); then, unless `l.out` is nil,
each line of a level in `levels` is handed to `l.out` and the root is emptied -/
def flushRoot (l : Logger) (opens : Bool) : Logger :=
  if l.paused ≠ 0 then l
  else
    match if l.out = .nil ∧ l.mode = .file then (if opens then .writer else .badFile) else l.out with
    | .nil => l
    | .writer =>
      { l with
        out := .writer
        root := []
        output := l.output ++ l.root.filter l.own
        discarded := l.discarded ++ l.root.filter (!l.own ·) }
    | .badFile =>
      { l with
        out := .badFile
        root := []
        lost := l.lost ++ l.root.filter l.own
        discarded := l.discarded ++ l.root.filter (!l.own ·) }

/-- `msg.parent.lines = append(msg.parent.lines, msg.lines...)` and
`msg.lines = msg.lines[:0]`, for the nested message `i` -/
def moveUp (l : Logger) (i : Nat) : Logger :=
  let l' := l.setLines (l.msgs i).parent (l.lines (l.msgs i).parent ++ (l.msgs i).lines)
  { l' with msgs := Function.update l'.msgs i { (l'.msgs i) with lines := [], flushed := true } }

/-- `msg.Flush()` -/
def flush (l : Logger) (opens : Bool) : MsgId → Logger
  | .root => if l.root = [] then l else l.flushRoot opens
  | .nested i =>
    if (l.msgs i).lines = [] then l
    else if (l.msgs i).parent = .root then (l.moveUp i).flushRoot opens
    else l.moveUp i

/-! ## the steps -/

/-- what a goroutine does to the logger in one atomic step; `opens` says whether
`os.OpenFile` succeeds, if the step calls it -/
inductive LogAct
  | begin (m : MsgId)
  | add (m : MsgId) (level : Nat)
  | flush (m : MsgId) (opens : Bool)
  | commit (i : Nat) (opens : Bool)
  | reject (i : Nat)
  | pause
  | resume
  | toNowhere
  | toConsole
  | toFile

/-- `m.Begin()`: the next nested message, with parent `m` -/
def begin (l : Logger) (m : MsgId) : Logger :=
  { l with
    msgs := Function.update l.msgs l.next
      ⟨m, [], true, l.path m ++ [l.next], false⟩
    next := l.next + 1 }

/-- `m.Add(level, ...)` when `(levels | ccLevels) & level != 0`: the append of a new line -/
def add (l : Logger) (m : MsgId) (level : Nat) : Logger :=
  { l.setLines m (l.lines m ++ [⟨l.handed.length, level, m⟩]) with
    handed := l.handed ++ [⟨l.handed.length, level, m⟩] }

/-- `msg.Commit()`: `Flush`, then the message goes back to the pool -/
def commit (l : Logger) (i : Nat) (opens : Bool) : Logger :=
  let l1 := if (l.msgs i).flushed then l else { l with blocks := l.blocks ++ [(l.msgs i).lines] }
  let l2 := l1.flush opens (.nested i)
  { l2 with msgs := Function.update l2.msgs i { (l2.msgs i) with live := false } }

/-- `msg.Reject()`: its lines are dropped -/
def reject (l : Logger) (i : Nat) : Logger :=
  { l with
    rejected := l.rejected ++ (l.msgs i).lines
    msgs := Function.update l.msgs i { (l.msgs i) with lines := [], live := false } }

/-- one step -/
def step (l : Logger) : LogAct → Logger
  | .begin m => if l.live m then l.begin m else l
  | .add m level => if l.live m ∧ (l.levels ||| l.ccLevels) &&& level ≠ 0 then l.add m level else l
  | .flush m opens => if l.live m then l.flush opens m else l
  | .commit i opens => if (l.msgs i).live then l.commit i opens else l
  | .reject i => if (l.msgs i).live then l.reject i else l
  | .pause => { l with paused := l.paused + 1 }
  | .resume => { l with paused := l.paused - 1 }
  | .toNowhere => { l with mode := .discard, out := .writer }
  | .toConsole => { l with mode := .console, out := .writer }
  | .toFile => { l with mode := .file, out := .nil }

/-- the logger after an interleaving of steps -/
def run (l : Logger) (acts : List LogAct) : Logger := acts.foldl step l

@[simp] theorem run_nil (l : Logger) : l.run [] = l := rfl

@[simp] theorem run_cons (l : Logger) (a : LogAct) (acts : List LogAct) :
    l.run (a :: acts) = (l.step a).run acts := rfl

theorem run_append (l : Logger) (acts acts' : List LogAct) :
    l.run (acts ++ acts') = (l.run acts).run acts' := List.foldl_append _ _ _ _

end Logger

end IppUsb
