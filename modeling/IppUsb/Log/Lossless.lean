import IppUsb.Log.Message
import Mathlib.Data.List.Nodup

/-!
# What the logger keeps: every line once, in order, a committed child in one piece

Over every interleaving of the steps of `Logger.step`, from a new logger:

* each line added is in exactly one place: the buffer of one message, the output, the lines
  handed to a nil `*os.File`, those of another level let go by a flush of the root, or those
  dropped by a `Reject` (`Logger.Inv.perm`, with `handed` free of repeats);
* only lines of a level in `levels` are written;
* the lines of one message reach the output in the order they were added: they travel up
  the message tree, and each `Flush` moves a whole buffer to the end of the next one
  (`Logger.Inv.order`, over `Logger.pipe`);
* the lines of a child committed without an earlier `Flush` stay together, and reach the
  output as one block (`Logger.Inv.blocks`).

* `Logger.Inv`            the invariant, and `Logger.Inv.step`, `Logger.Inv.run`;
* `run_lossless`          what it gives over every run;
* `run_paused`            from a paused logger, no run without `Resume` writes a line: the
                          lines added stay buffered or are rejected;
* `failed_open_loses_lines`  in file mode, a failed `os.OpenFile` makes a flush of the root
                          hand its lines to the nil `*os.File`: they are lost, where the
                          source means to keep them buffered.
-/

namespace IppUsb

open scoped List

/-! ## lists -/

theorem flatMap_sublist_flatMap {α β : Type} (js : List α) (f g : α → List β)
    (h : ∀ j ∈ js, f j <+ g j) : js.flatMap f <+ js.flatMap g := by
  induction js with
  | nil => exact .slnil
  | cons j js ih =>
    simp only [List.flatMap_cons]
    exact (h j (by simp)).append (ih fun k hk => h k (List.mem_cons_of_mem _ hk))

/-- changing one entry of a family over `range n` changes its `flatMap` by that entry -/
theorem flatMap_range_update_perm {α : Type} [DecidableEq α] (f g : Nat → List α) (n i : Nat) (hi : i < n)
    (h : ∀ j, j ≠ i → g j = f j) :
    (List.range n).flatMap g ++ f i ~ (List.range n).flatMap f ++ g i := by
  induction n with
  | zero => omega
  | succ n ih =>
    rw [List.perm_iff_count]
    intro a
    simp only [List.range_succ, List.flatMap_append, List.flatMap_cons, List.flatMap_nil,
      List.append_nil, List.count_append]
    by_cases hin : i = n
    · subst hin
      have : (List.range i).flatMap g = (List.range i).flatMap f :=
        List.flatMap_congr fun j hj => h j (by simp at hj; omega)
      rw [this]; omega
    · have := List.perm_iff_count.mp (ih (by omega)) a
      simp only [List.count_append] at this
      rw [h n (Ne.symm hin)]; omega

namespace Logger

/-! ## views of the state -/

/-- every line in a buffer: the root's, then those of each nested message -/
def buffered (l : Logger) : List LogLine :=
  l.root ++ (List.range l.next).flatMap fun i => (l.msgs i).lines

/-- every place a line can be: written, handed to the nil file, let go, rejected, buffered -/
def places (l : Logger) : List LogLine :=
  l.output ++ l.lost ++ l.discarded ++ l.rejected ++ l.buffered

/-- the way of the lines of `m` to the output: the output, the root, then each nested message
from the top one down to `m` -/
def pipe (l : Logger) (m : MsgId) : List LogLine :=
  l.output ++ l.root ++ (l.path m).flatMap fun j => (l.msgs j).lines

/-- the lines added to `m`, in order -/
def addedTo (l : Logger) (m : MsgId) : List LogLine := l.handed.filter (·.origin = m)

/-! ## the invariant -/

/-- the messages made so far form a tree, each with its path from the top -/
structure Tree (l : Logger) : Prop where
  blank : ∀ i, l.next ≤ i → l.msgs i = .blank
  path_eq : ∀ i < l.next, (l.msgs i).path = l.path (l.msgs i).parent ++ [i]
  parent_lt : ∀ i < l.next, ∀ p, (l.msgs i).parent = .nested p → p < i

/-- what holds in every state a run reaches -/
structure Inv (l : Logger) extends l.Tree : Prop where
  origin : ∀ i, ∀ x ∈ (l.msgs i).lines, ∃ o, x.origin = .nested o ∧ o < l.next ∧ i ∈ (l.msgs o).path
  fresh : ∀ x ∈ l.handed, x.id < l.handed.length ∧ ∀ o, x.origin = .nested o → o < l.next
  nodup : l.handed.Nodup
  perm : l.handed ~ l.places
  written : ∀ x ∈ l.output ++ l.lost, l.own x = true
  order : ∀ m, (l.pipe m).filter (·.origin = m) <+ l.addedTo m
  blocks : ∀ b ∈ l.blocks, (∃ m, b <:+: l.lines m) ∨ b.filter l.own <:+: l.output ∨
    b.filter l.own <:+: l.lost ∨ b <:+: l.rejected

/-! ## the message tree -/

section tree

variable {l : Logger} (h : l.Tree)
include h

theorem Tree.path_le (i : Nat) : ∀ j ∈ (l.msgs i).path, j ≤ i := by
  induction i using Nat.strong_induction_on with
  | _ i ih =>
    intro j hj
    by_cases hi : i < l.next
    · rw [h.path_eq i hi] at hj
      rcases List.mem_append.mp hj with hj | hj
      · cases hp : (l.msgs i).parent with
        | root => simp [hp, Logger.path] at hj
        | nested p =>
          rw [hp, Logger.path] at hj
          have := h.parent_lt i hi p hp
          have := ih p this j hj
          omega
      · simp at hj; omega
    · simp [h.blank i (by omega), LogMsg.blank] at hj

theorem Tree.path_nodup (i : Nat) : (l.msgs i).path.Nodup := by
  induction i using Nat.strong_induction_on with
  | _ i ih =>
    by_cases hi : i < l.next
    · rw [h.path_eq i hi]
      cases hp : (l.msgs i).parent with
      | root => simp [Logger.path]
      | nested p =>
        have hpi := h.parent_lt i hi p hp
        simp only [Logger.path]
        refine List.nodup_append.mpr ⟨ih p hpi, List.nodup_singleton i, fun a ha hb => ?_⟩
        have := h.path_le p a ha
        simp at hb; omega
    · simp [h.blank i (by omega), LogMsg.blank]

theorem Tree.path_prefix (i : Nat) : ∀ j ∈ (l.msgs i).path, (l.msgs j).path <+: (l.msgs i).path := by
  induction i using Nat.strong_induction_on with
  | _ i ih =>
    intro j hj
    by_cases hi : i < l.next
    · have hpi := h.path_eq i hi
      rw [hpi] at hj
      rcases List.mem_append.mp hj with hj | hj
      · cases hp : (l.msgs i).parent with
        | root => simp [hp, Logger.path] at hj
        | nested p =>
          rw [hp, Logger.path] at hj
          rw [hpi, hp, Logger.path]
          exact (ih p (h.parent_lt i hi p hp) j hj).trans (List.prefix_append _ _)
      · simp at hj; subst hj; exact List.prefix_refl _
    · simp [h.blank i (by omega), LogMsg.blank] at hj

theorem Tree.lt_of_live {m : MsgId} (hm : l.live m = true) : ∀ i, m = .nested i → i < l.next := by
  rintro i rfl
  by_contra hi
  simp [live, h.blank i (by omega), LogMsg.blank] at hm

theorem Tree.not_mem_path_parent {i : Nat} (hi : i < l.next) : i ∉ l.path (l.msgs i).parent := by
  have := h.path_nodup i
  rw [h.path_eq i hi] at this
  exact fun hm => (List.nodup_append.mp this).2.2 hm (List.mem_singleton_self i)

theorem Tree.mem_path_self {i : Nat} (hi : i < l.next) : i ∈ (l.msgs i).path := by
  rw [h.path_eq i hi]; simp

/-- the way of a nested message's lines is its parent's, then its own buffer -/
theorem Tree.pipe_nested {i : Nat} (hi : i < l.next) :
    l.pipe (.nested i) = l.pipe (l.msgs i).parent ++ (l.msgs i).lines := by
  simp only [pipe, Logger.path, h.path_eq i hi, List.flatMap_append, List.flatMap_cons,
    List.flatMap_nil, List.append_nil, List.append_assoc]

end tree

/-! ## changing the lines of one message -/

/-- `l'` has the message tree of `l`: only the lines, `live` and `flushed` of messages made so
far differ -/
structure SameTree (l l' : Logger) : Prop where
  next : l'.next = l.next
  parent : ∀ j, (l'.msgs j).parent = (l.msgs j).parent
  path : ∀ j, (l'.msgs j).path = (l.msgs j).path
  beyond : ∀ j, l.next ≤ j → l'.msgs j = l.msgs j

theorem SameTree.path_eq {l l' : Logger} (hs : SameTree l l') (m : MsgId) : l'.path m = l.path m := by
  cases m with
  | root => rfl
  | nested j => exact hs.path j

theorem SameTree.tree {l l' : Logger} (hs : SameTree l l') (h : l.Tree) : l'.Tree where
  blank i hi := by rw [hs.beyond i (by rw [← hs.next]; exact hi)]; exact h.blank i (by rw [← hs.next]; exact hi)
  path_eq i hi := by
    rw [hs.next] at hi
    rw [hs.path, hs.parent, hs.path_eq]; exact h.path_eq i hi
  parent_lt i hi p hp := h.parent_lt i (hs.next ▸ hi) p (hs.parent i ▸ hp)

theorem SameTree.trans {l l' l'' : Logger} (h1 : SameTree l l') (h2 : SameTree l' l'') : SameTree l l'' :=
  ⟨h2.next.trans h1.next, fun j => (h2.parent j).trans (h1.parent j), fun j => (h2.path j).trans (h1.path j),
    fun j hj => (h2.beyond j (by rw [h1.next]; exact hj)).trans (h1.beyond j hj)⟩

/-- changing the lines, `live` or `flushed` of a message made so far keeps the tree -/
theorem SameTree.of_update {l l' : Logger} {i : Nat} (hi : i < l.next) (xs : List LogLine) (b c : Bool)
    (hn : l'.next = l.next)
    (hm : l'.msgs = Function.update l.msgs i { (l.msgs i) with lines := xs, live := b, flushed := c }) :
    SameTree l l' where
  next := hn
  parent j := by rw [hm, Function.update_apply]; split <;> (try subst_vars) <;> rfl
  path j := by rw [hm, Function.update_apply]; split <;> (try subst_vars) <;> rfl
  beyond j hj := by rw [hm, Function.update_apply, if_neg (by omega)]

theorem lines_of_update {l l' : Logger} {i : Nat} {xs : List LogLine} {b c : Bool}
    (hm : l'.msgs = Function.update l.msgs i { (l.msgs i) with lines := xs, live := b, flushed := c })
    (j : Nat) : (l'.msgs j).lines = if j = i then xs else (l.msgs j).lines := by
  rw [hm, Function.update_apply]; split <;> rfl


theorem setLines_msgs (l : Logger) (m : MsgId) (xs : List LogLine) (j : Nat) :
    (l.setLines m xs).msgs j = if m = .nested j then { (l.msgs j) with lines := xs } else l.msgs j :=
  rfl

theorem msgs_lines_setLines (l : Logger) (m : MsgId) (xs : List LogLine) (j : Nat) :
    ((l.setLines m xs).msgs j).lines = if m = .nested j then xs else (l.msgs j).lines := by
  simp only [setLines_msgs]; split <;> rfl

@[simp] theorem msgs_path_setLines (l : Logger) (m : MsgId) (xs : List LogLine) (j : Nat) :
    ((l.setLines m xs).msgs j).path = (l.msgs j).path := by
  simp only [setLines_msgs]; split <;> rfl

@[simp] theorem msgs_parent_setLines (l : Logger) (m : MsgId) (xs : List LogLine) (j : Nat) :
    ((l.setLines m xs).msgs j).parent = (l.msgs j).parent := by
  simp only [setLines_msgs]; split <;> rfl

@[simp] theorem setLines_path (l : Logger) (m : MsgId) (xs : List LogLine) (m' : MsgId) :
    (l.setLines m xs).path m' = l.path m' := by
  cases m' with
  | root => rfl
  | nested j => simp only [Logger.path, setLines_msgs]; split <;> rfl

@[simp] theorem setLines_lines (l : Logger) (m : MsgId) (xs : List LogLine) (m' : MsgId) :
    (l.setLines m xs).lines m' = if m' = m then xs else l.lines m' := by
  cases m' with
  | root => cases m <;> simp [lines, setLines]
  | nested j =>
    simp only [lines, msgs_lines_setLines]
    by_cases h : m = .nested j
    · simp [h]
    · simp [h, Ne.symm h]

theorem sameTree_setLines (l : Logger) (m : MsgId) (xs : List LogLine)
    (hm : ∀ i, m = .nested i → i < l.next) : SameTree l (l.setLines m xs) :=
  ⟨rfl, msgs_parent_setLines l m xs, msgs_path_setLines l m xs, fun j hj => by
    rw [setLines_msgs, if_neg fun he => absurd (hm j he) (by omega)]⟩

/-- the buffers change by what one message loses and gains -/
theorem buffered_setLines (l : Logger) (m : MsgId) (xs : List LogLine)
    (hm : ∀ i, m = .nested i → i < l.next) :
    (l.setLines m xs).buffered ++ l.lines m ~ l.buffered ++ xs := by
  cases m with
  | root =>
    simp only [buffered, setLines, if_true, reduceCtorEq, if_false, lines]
    exact List.perm_iff_count.mpr fun a => by simp [List.count_append]; omega
  | nested i =>
    have hp := flatMap_range_update_perm (fun j => (l.msgs j).lines)
      (fun j => if i = j then xs else (l.msgs j).lines) l.next i (hm i rfl) (fun j hj => by simp [Ne.symm hj])
    simp only [if_true] at hp
    simp only [buffered, setLines, reduceCtorEq, if_false, lines, MsgId.nested.injEq]
    refine List.perm_iff_count.mpr fun a => ?_
    have := List.perm_iff_count.mp hp a
    simp only [List.count_append] at this ⊢
    have e : (List.range l.next).flatMap (fun j => (if i = j then { (l.msgs j) with lines := xs }
        else l.msgs j).lines) = (List.range l.next).flatMap fun j => if i = j then xs else (l.msgs j).lines :=
      List.flatMap_congr fun j _ => by split <;> rfl
    rw [e]; omega

/-- the filtered way to the output of `m` does not see a change that keeps each buffer's
filtered lines -/
theorem pipe_filter_congr (l l' : Logger) (m : MsgId) (P : LogLine → Bool)
    (ho : l'.output = l.output) (hr : l'.root.filter P = l.root.filter P)
    (hp : l'.path m = l.path m) (hl : ∀ j ∈ l.path m, (l'.msgs j).lines.filter P = (l.msgs j).lines.filter P) :
    (l'.pipe m).filter P = (l.pipe m).filter P := by
  simp only [pipe, List.filter_append, List.filter_flatMap, ho, hr, hp]
  rw [List.flatMap_congr hl]

theorem pipe_setLines_of_not_mem (l : Logger) (j : Nat) (xs : List LogLine) (m : MsgId)
    (hj : j ∉ l.path m) : (l.setLines (.nested j) xs).pipe m = l.pipe m := by
  unfold pipe
  rw [setLines_path]
  refine congrArg₂ (· ++ ·) (by simp [setLines]) (List.flatMap_congr fun k hk => ?_)
  rw [msgs_lines_setLines, if_neg fun he => hj (by cases he; exact hk)]

/-- appending to the buffer of `m` appends to the end of the way of `m` to the output -/
theorem Tree.pipe_setLines_append {l : Logger} (h : l.Tree) {m : MsgId}
    (hm : ∀ i, m = .nested i → i < l.next) (xs : List LogLine) :
    (l.setLines m (l.lines m ++ xs)).pipe m = l.pipe m ++ xs := by
  cases m with
  | root => simp [pipe, setLines, Logger.path, lines]
  | nested i =>
    have hi := hm i rfl
    rw [((sameTree_setLines l _ _ hm).tree h).pipe_nested hi, msgs_parent_setLines,
      pipe_setLines_of_not_mem _ _ _ _ (h.not_mem_path_parent hi), h.pipe_nested hi]
    simp [lines, msgs_lines_setLines]

theorem buffered_congr (l l' : Logger) (hn : l'.next = l.next) (hr : l'.root = l.root)
    (hl : ∀ j, (l'.msgs j).lines = (l.msgs j).lines) : l'.buffered = l.buffered := by
  simp only [buffered, hn, hr, hl]

theorem pipe_congr (l l' : Logger) (ho : l'.output = l.output) (hr : l'.root = l.root)
    (hp : ∀ j, (l'.msgs j).path = (l.msgs j).path) (hl : ∀ j, (l'.msgs j).lines = (l.msgs j).lines)
    (m : MsgId) : l'.pipe m = l.pipe m := by
  cases m <;> simp only [pipe, Logger.path, ho, hr, hp, hl]

/-- the way of `k` runs through `i` when the path of `k` goes through `i` -/
theorem pipe_nested_of_path {l : Logger} {k i : Nat} {post : List Nat}
    (hk : (l.msgs k).path = (l.msgs i).path ++ post) :
    l.pipe (.nested k) = l.pipe (.nested i) ++ post.flatMap fun j => (l.msgs j).lines := by
  simp [pipe, Logger.path, hk]

/-- no line of a message `m` sits in a buffer off the way of `m` -/
theorem Inv.filter_lines_of_not_mem {l : Logger} (h : l.Inv) {i : Nat} {m : MsgId}
    (hi : i ∉ l.path m) : (l.msgs i).lines.filter (·.origin = m) = [] := by
  refine List.filter_eq_nil_iff.mpr fun y hy hym => ?_
  obtain ⟨o, ho, -, hio⟩ := h.origin i y hy
  simp only [decide_eq_true_eq] at hym
  rw [hym] at ho; subst ho
  exact hi hio

/-- `moveUp` leaves the buffers of moving the lines of `i` to the end of its parent's and
emptying `i` -/
theorem moveUp_msgs_lines (l : Logger) (i j : Nat) :
    ((l.moveUp i).msgs j).lines = (((l.setLines (l.msgs i).parent
      (l.lines (l.msgs i).parent ++ (l.msgs i).lines)).setLines (.nested i) []).msgs j).lines := by
  simp only [moveUp, Function.update_apply, msgs_lines_setLines, MsgId.nested.injEq]
  by_cases hj : j = i
  · simp [hj]
  · simp only [hj, Ne.symm hj, if_false, msgs_lines_setLines]

/-- emptying a nested buffer only takes lines off every way to the output -/
theorem pipe_setLines_nil_sublist (l : Logger) (i : Nat) (m : MsgId) :
    (l.setLines (.nested i) []).pipe m <+ l.pipe m := by
  simp only [pipe, setLines_path]
  refine List.Sublist.append (by simp [setLines]) (flatMap_sublist_flatMap _ _ _ fun j _ => ?_)
  rw [msgs_lines_setLines]; split
  · exact List.nil_sublist _
  · exact List.Sublist.refl _

theorem Inv.mem_handed {l : Logger} (h : l.Inv) {y : LogLine} (hy : y ∈ l.output ∨ y ∈ l.root) :
    y ∈ l.handed :=
  h.perm.symm.subset (by rcases hy with hy | hy <;> simp [places, buffered, hy])

theorem flushRoot_next (l : Logger) (opens : Bool) : (l.flushRoot opens).next = l.next := by
  unfold flushRoot; split
  · rfl
  split <;> rfl

theorem flush_next (l : Logger) (opens : Bool) (m : MsgId) : (l.flush opens m).next = l.next := by
  cases m <;> simp only [flush] <;> split_ifs <;> (try rw [flushRoot_next]) <;> rfl

theorem flushRoot_levels (l : Logger) (opens : Bool) : (l.flushRoot opens).levels = l.levels := by
  unfold flushRoot; split
  · rfl
  split <;> rfl

theorem flush_levels (l : Logger) (opens : Bool) (m : MsgId) :
    (l.flush opens m).levels = l.levels := by
  cases m <;> simp only [flush] <;> split_ifs <;> (try rw [flushRoot_levels]) <;> rfl

theorem commit_levels (l : Logger) (i : Nat) (opens : Bool) : (l.commit i opens).levels = l.levels := by
  simp only [commit, flush_levels]; split <;> rfl

/-- no step changes `levels`: `SetLevels` is not one of them -/
theorem run_levels (l : Logger) (acts : List LogAct) : (l.run acts).levels = l.levels := by
  induction acts generalizing l with
  | nil => rfl
  | cons a acts ih =>
    rw [run_cons, ih]
    cases a <;> simp only [step] <;> split_ifs <;>
      first | rfl | exact flush_levels .. | exact commit_levels ..

/-- the recorded blocks stay where `Inv` puts them when each buffer stays inside a buffer or
moves to the end of the output, the lost lines or the rejected lines, and these only grow -/
theorem Inv.blocks_of {l l' : Logger} (h : l.Inv) (hb : l'.blocks = l.blocks) (hown : l'.own = l.own)
    (ho : l.output <:+: l'.output) (hlo : l.lost <:+: l'.lost) (hr : l.rejected <:+: l'.rejected)
    (hl : ∀ m, (∃ m', l.lines m <:+: l'.lines m') ∨ (l.lines m).filter l.own <:+: l'.output ∨
      (l.lines m).filter l.own <:+: l'.lost ∨ l.lines m <:+: l'.rejected) :
    ∀ b ∈ l'.blocks, (∃ m, b <:+: l'.lines m) ∨ b.filter l'.own <:+: l'.output ∨
      b.filter l'.own <:+: l'.lost ∨ b <:+: l'.rejected := by
  rw [hb, hown]
  intro b hb
  rcases h.blocks b hb with ⟨m, hm⟩ | hb | hb | hb
  · rcases hl m with ⟨m', h'⟩ | h' | h' | h'
    · exact .inl ⟨m', hm.trans h'⟩
    · exact .inr (.inl ((hm.filter _).trans h'))
    · exact .inr (.inr (.inl ((hm.filter _).trans h')))
    · exact .inr (.inr (.inr (hm.trans h')))
  · exact .inr (.inl (hb.trans ho))
  · exact .inr (.inr (.inl (hb.trans hlo)))
  · exact .inr (.inr (.inr (hb.trans hr)))

/-! ## the steps keep the invariant -/

section steps

variable {l : Logger} (h : l.Inv)
include h

theorem Inv.add {m : MsgId} (hm : l.live m = true) (level : Nat) : (l.add m level).Inv := by
  have hlt := h.toTree.lt_of_live hm
  set x : LogLine := ⟨l.handed.length, level, m⟩ with hx
  have hxh : x ∉ l.handed := fun hmem => by simpa [hx] using (h.fresh x hmem).1
  have hs : SameTree l (l.add m level) :=
    let hs := sameTree_setLines l m (l.lines m ++ [x]) hlt; ⟨hs.next, hs.parent, hs.path, hs.beyond⟩
  have hlines : ∀ m', (l.add m level).lines m' = if m' = m then l.lines m ++ [x] else l.lines m' :=
    fun m' => (show (l.add m level).lines m' = (l.setLines m (l.lines m ++ [x])).lines m' by
      cases m' <;> rfl).trans (setLines_lines _ _ _ _)
  refine ⟨hs.tree h.toTree, ?origin, ?fresh, ?nodup, ?perm, h.written, ?order,
    h.blocks_of rfl rfl (List.infix_refl _) (List.infix_refl _) (List.infix_refl _) fun m' => .inl ⟨m', ?_⟩⟩
  case origin =>
    intro i y hy
    rw [hs.next]
    simp only [hs.path]
    have hy' : y ∈ (l.add m level).lines (.nested i) := hy
    rw [hlines] at hy'
    split at hy'
    · rename_i hmi
      rcases List.mem_append.mp hy' with hy' | hy'
      · exact h.origin i y (by rw [← hmi] at hy'; exact hy')
      · rw [List.mem_singleton.mp hy', hx, ← hmi]
        exact ⟨i, rfl, hlt i hmi.symm, h.toTree.mem_path_self (hlt i hmi.symm)⟩
    · exact h.origin i y hy'
  case fresh =>
    intro y hy
    show y.id < (l.handed ++ [x]).length ∧ ∀ o, y.origin = .nested o → o < l.next
    rw [List.length_append, List.length_singleton]
    rcases List.mem_append.mp hy with hy | hy
    · exact ⟨by have := (h.fresh y hy).1; omega, (h.fresh y hy).2⟩
    · obtain rfl := List.mem_singleton.mp hy
      exact ⟨Nat.lt_succ_self _, hlt⟩
  case nodup => exact List.nodup_append.mpr ⟨h.nodup, List.nodup_singleton x,
      fun a ha hb => by rw [List.mem_singleton.mp hb] at ha; exact hxh ha⟩
  case perm =>
    have hb := buffered_setLines l m (l.lines m ++ [x]) hlt
    show l.handed ++ [x] ~
      l.output ++ l.lost ++ l.discarded ++ l.rejected ++ (l.setLines m (l.lines m ++ [x])).buffered
    refine List.perm_iff_count.mpr fun a => ?_
    have h1 := List.perm_iff_count.mp h.perm a
    have h2 := List.perm_iff_count.mp hb a
    simp only [places, List.count_append] at h1 h2 ⊢
    omega
  case order =>
    intro m'
    show ((l.setLines m (l.lines m ++ [x])).pipe m').filter (·.origin = m') <+
      (l.handed ++ [x]).filter (·.origin = m')
    by_cases hmm : m' = m
    · subst hmm
      rw [h.toTree.pipe_setLines_append hlt, List.filter_append, List.filter_append]
      exact (h.order m').append (by simp [hx])
    · -- the new line is not one of those of `m'`: the filtered way of `m'` is as it was
      have hP : ∀ ys : List LogLine, (ys ++ [x]).filter (·.origin = m') = ys.filter (·.origin = m') := by
        intro ys; simp [List.filter_append, hx, Ne.symm hmm]
      rw [pipe_filter_congr l (l.setLines m (l.lines m ++ [x])) m' _ rfl ?_ (setLines_path _ _ _ _)
        fun j _ => ?_, hP]
      · exact h.order m'
      · simp only [setLines]; split
        · subst_vars; exact hP _
        · rfl
      · rw [msgs_lines_setLines]; split
        · subst_vars; exact hP _
        · rfl
  rw [hlines]; split
  · subst_vars; exact (List.prefix_append _ _).isInfix
  · exact List.infix_refl _

theorem Inv.moveUp {i : Nat} (hi : i < l.next) : (l.moveUp i).Inv := by
  set p := (l.msgs i).parent with hp
  have hpi := h.parent_lt i hi
  have hpne : p ≠ .nested i := fun he => by have := hpi i he; omega
  have hpn : ∀ q, p = .nested q → q < l.next := fun q hq => by have := hpi q hq; omega
  set l1 := l.setLines p (l.lines p ++ (l.msgs i).lines) with hl1
  set l2 := l1.setLines (.nested i) [] with hl2
  have hs1 : SameTree l l1 := sameTree_setLines l p _ hpn
  have hs : SameTree l (l.moveUp i) := hs1.trans (.of_update hi [] _ true rfl rfl)
  have hs2 : SameTree l l2 := hs1.trans (sameTree_setLines l1 _ _ fun q hq => by cases hq; exact hi)
  have hroot : (l.moveUp i).root = l2.root := by
    simp only [Logger.moveUp, hl2, hl1, setLines, reduceCtorEq, if_false]
  have hlines : ∀ j, ((l.moveUp i).msgs j).lines = (l2.msgs j).lines := moveUp_msgs_lines l i
  have hview : ∀ m, (l.moveUp i).lines m =
      if m = .nested i then [] else if m = p then l.lines p ++ (l.msgs i).lines else l.lines m := by
    intro m
    rw [show (l.moveUp i).lines m = l2.lines m by cases m; exact hroot; exact hlines _]
    simp only [hl2, hl1, setLines_lines]
  refine ⟨hs.tree h.toTree, ?origin, h.fresh, h.nodup, ?perm, h.written, ?order,
    h.blocks_of rfl rfl (List.infix_refl _) (List.infix_refl _) (List.infix_refl _) fun m => .inl ?_⟩
  case origin =>
    intro j y hy
    simp only [hs.path]
    have hy' : y ∈ (l.moveUp i).lines (.nested j) := hy
    rw [hview] at hy'
    split at hy'
    · simp at hy'
    split at hy'
    · rename_i hji hjp
      rcases List.mem_append.mp hy' with hy' | hy'
      · exact h.origin j y (by rw [← hjp] at hy'; exact hy')
      · obtain ⟨o, ho, hon, hio⟩ := h.origin i y hy'
        refine ⟨o, ho, hon, (h.toTree.path_prefix o i hio).subset ?_⟩
        have hj := hpn j hjp.symm
        rw [h.path_eq i hi, ← hp, ← hjp, Logger.path, h.path_eq j hj]
        simp
    · exact h.origin j y hy'
  case perm =>
    have hb1 := buffered_setLines l p (l.lines p ++ (l.msgs i).lines) hpn
    rw [← hl1] at hb1
    have hb2 := buffered_setLines l1 (.nested i) [] fun q hq => by cases hq; exact hi
    have hli : l1.lines (.nested i) = (l.msgs i).lines := by
      rw [hl1, setLines_lines, if_neg (Ne.symm hpne)]; rfl
    rw [hli, ← hl2] at hb2
    show l.handed ~ l.output ++ l.lost ++ l.discarded ++ l.rejected ++ (l.moveUp i).buffered
    rw [buffered_congr l2 (l.moveUp i) rfl hroot hlines]
    refine List.perm_iff_count.mpr fun a => ?_
    have h1 := List.perm_iff_count.mp h.perm a
    have c1 := List.perm_iff_count.mp hb1 a
    have c2 := List.perm_iff_count.mp hb2 a
    simp only [places, List.count_append, List.count_nil, lines] at h1 c1 c2 ⊢
    omega
  case order =>
    intro m
    show ((l.moveUp i).pipe m).filter (·.origin = m) <+ l.addedTo m
    rw [pipe_congr l2 (l.moveUp i) rfl hroot (fun j => (hs.path j).trans (hs2.path j).symm) hlines m]
    by_cases him : i ∈ l.path m
    · -- the way of `m` goes through `i`: nothing on it moves
      cases m with
      | root => simp [Logger.path] at him
      | nested k =>
        obtain ⟨post, hpost⟩ := h.toTree.path_prefix k i him
        have hnd := h.toTree.path_nodup k
        rw [← hpost] at hnd
        have hdis := List.disjoint_of_nodup_append hnd
        have ho := h.order (.nested k)
        rw [pipe_nested_of_path hpost.symm] at ho
        have hpost2 : (l2.msgs k).path = (l2.msgs i).path ++ post := by
          rw [hs2.path, hs2.path]; exact hpost.symm
        rw [pipe_nested_of_path hpost2]
        have hpq : ∀ q, p = .nested q → q ∈ (l.msgs i).path := fun q hq => by
          rw [h.path_eq i hi, ← hp, hq, Logger.path]
          simp [h.toTree.mem_path_self (hpn q hq)]
        have hrest : (post.flatMap fun j => (l2.msgs j).lines) = post.flatMap fun j => (l.msgs j).lines :=
          List.flatMap_congr fun j hj => by
            have hij : i ≠ j := fun he => hdis (h.toTree.mem_path_self hi) (he ▸ hj)
            have hpj : p ≠ .nested j := fun he => hdis (hpq j he) hj
            simp only [hl2, hl1, msgs_lines_setLines, MsgId.nested.injEq, hij, hpj, if_false]
        have hwayi : l2.pipe (.nested i) = l.pipe (.nested i) := by
          rw [(hs2.tree h.toTree).pipe_nested hi, hs2.parent, ← hp, hl2, msgs_lines_setLines, if_pos rfl,
            List.append_nil, pipe_setLines_of_not_mem _ _ _ _ (by
              rw [setLines_path]; exact h.toTree.not_mem_path_parent hi),
            hl1, h.toTree.pipe_setLines_append hpn, h.toTree.pipe_nested hi]
        rw [hrest, hwayi]
        exact ho
    · have hnil := h.filter_lines_of_not_mem him
      rw [pipe_filter_congr l l2 m _ rfl ?_ (by simp [hl2, hl1]) ?_]
      · exact h.order m
      · simp only [hl2, hl1, setLines, reduceCtorEq, if_false]
        split
        · rename_i hr; rw [hr]; simp [List.filter_append, hnil, lines]
        · rfl
      · intro j hj
        have hji : j ≠ i := fun he => him (he ▸ hj)
        simp only [hl2, hl1, msgs_lines_setLines, MsgId.nested.injEq, Ne.symm hji, if_false]
        split
        · rename_i hjp; rw [List.filter_append, hnil, List.append_nil, hjp]; rfl
        · rfl
  -- the lines of `i` go to the end of those of `p`
  by_cases hmi : m = .nested i
  · exact ⟨p, by rw [hview, if_neg hpne, if_pos rfl, hmi]; exact (List.suffix_append _ _).isInfix⟩
  · by_cases hmp : m = p
    · exact ⟨p, by rw [hview, if_neg hpne, if_pos rfl, hmp]; exact (List.prefix_append _ _).isInfix⟩
    · exact ⟨m, by rw [hview, if_neg hmi, if_neg hmp]⟩

/-- the root emptied: its lines of a level in `levels` appended to the output, or to the lines
handed to the nil file, and the others let go -/
theorem Inv.emptyRoot (o : LogOut) (W L : List LogLine)
    (hWL : W = l.root.filter l.own ∧ L = [] ∨ W = [] ∧ L = l.root.filter l.own) :
    ({ l with
        out := o
        root := []
        output := l.output ++ W
        lost := l.lost ++ L
        discarded := l.discarded ++ l.root.filter (!l.own ·) }).Inv := by
  have hsplit : ∀ a, l.root.count a = (l.root.filter l.own).count a + (l.root.filter (!l.own ·)).count a :=
    fun a => by rw [← List.count_append]; exact List.perm_iff_count.mp (List.filter_append_perm _ _).symm a
  have hcount : ∀ a, W.count a + L.count a = (l.root.filter l.own).count a := fun a => by
    rcases hWL with ⟨rfl, rfl⟩ | ⟨rfl, rfl⟩ <;> simp
  have hW : W <+ l.root.filter l.own := by rcases hWL with ⟨rfl, -⟩ | ⟨rfl, -⟩ <;> simp
  have hown : ∀ x ∈ W ++ L, l.own x = true := fun x hx => by
    rcases hWL with ⟨rfl, rfl⟩ | ⟨rfl, rfl⟩ <;> simp_all
  refine ⟨⟨h.blank, h.path_eq, h.parent_lt⟩, h.origin, h.fresh, h.nodup, ?_, fun x hx => ?_, fun m => ?_,
    h.blocks_of rfl rfl (List.prefix_append _ _).isInfix (List.prefix_append _ _).isInfix (List.infix_refl _)
      fun m => ?_⟩
  · refine List.perm_iff_count.mpr fun a => ?_
    have h1 := List.perm_iff_count.mp h.perm a
    simp only [places, buffered, List.count_append, List.count_nil] at h1 ⊢
    have := hsplit a; have := hcount a; omega
  · simp only [List.mem_append] at hx
    rcases hx with (hx | hx) | hx | hx
    · exact h.written x (List.mem_append_left _ hx)
    · exact hown x (List.mem_append_left _ hx)
    · exact h.written x (List.mem_append_right _ hx)
    · exact hown x (List.mem_append_right _ hx)
  · show (l.output ++ W ++ [] ++ (l.path m).flatMap fun j => (l.msgs j).lines).filter _ <+ _
    rw [List.append_nil]
    exact ((((hW.trans (List.filter_sublist _)).append_left _).append_right _).filter _).trans (h.order m)
  · cases m with
    | root =>
      rcases hWL with ⟨rfl, -⟩ | ⟨-, rfl⟩
      · exact .inr (.inl (List.suffix_append _ _).isInfix)
      · exact .inr (.inr (.inl (List.suffix_append _ _).isInfix))
    | nested j => exact .inl ⟨.nested j, List.infix_refl _⟩

/-- a flush of the root that reaches `l.out` -/
theorem Inv.flushRoot (opens : Bool) : (l.flushRoot opens).Inv := by
  unfold Logger.flushRoot
  split
  · exact h
  split
  · exact h
  · simpa only [List.append_nil] using h.emptyRoot .writer _ [] (.inl ⟨rfl, rfl⟩)
  · simpa only [List.append_nil] using h.emptyRoot .badFile [] _ (.inr ⟨rfl, rfl⟩)

theorem Inv.reject {i : Nat} (hi : i < l.next) : (l.reject i).Inv := by
  have hs : SameTree l (l.reject i) := .of_update hi [] false _ rfl rfl
  have hlines : ∀ j, ((l.reject i).msgs j).lines = ((l.setLines (.nested i) []).msgs j).lines := by
    intro j
    rw [lines_of_update rfl, msgs_lines_setLines]
    simp only [MsgId.nested.injEq, eq_comm]
  refine ⟨hs.tree h.toTree, fun j y hy => ?_, h.fresh, h.nodup, ?_, h.written, fun m => ?_,
    h.blocks_of rfl rfl (List.infix_refl _) (List.infix_refl _) (List.prefix_append _ _).isInfix fun m => ?_⟩
  · rw [hlines, msgs_lines_setLines] at hy
    split at hy
    · simp at hy
    · simpa only [hs.path] using h.origin j y hy
  · have hb := buffered_setLines l (.nested i) [] fun q hq => by cases hq; exact hi
    show l.handed ~ l.output ++ l.lost ++ l.discarded ++ (l.rejected ++ (l.msgs i).lines) ++
      (l.reject i).buffered
    rw [buffered_congr (l.setLines (.nested i) []) (l.reject i) rfl rfl hlines]
    refine List.perm_iff_count.mpr fun a => ?_
    have h1 := List.perm_iff_count.mp h.perm a
    have c := List.perm_iff_count.mp hb a
    simp only [places, List.count_append, List.count_nil, lines] at h1 c ⊢
    omega
  · rw [pipe_congr (l.setLines (.nested i) []) (l.reject i) rfl rfl (fun j => by rw [hs.path]; simp)
      hlines m]
    exact ((pipe_setLines_nil_sublist l i m).filter _).trans (h.order m)
  · -- the lines of `i` go to the end of the rejected lines
    cases m with
    | root => exact .inl ⟨.root, List.infix_refl _⟩
    | nested j =>
      by_cases hj : j = i
      · subst hj; exact .inr (.inr (.inr (List.suffix_append _ _).isInfix))
      · refine .inl ⟨.nested j, ?_⟩
        show _ <:+: ((l.reject i).msgs j).lines
        rw [hlines, msgs_lines_setLines, if_neg fun he => hj (MsgId.nested.inj he).symm]
        exact List.infix_refl _

theorem Inv.begin {m : MsgId} (hm : l.live m = true) : (l.begin m).Inv := by
  have hlt := h.toTree.lt_of_live hm
  have hmsg : ∀ j, (l.begin m).msgs j =
      if j = l.next then ⟨m, [], true, l.path m ++ [l.next], false⟩ else l.msgs j :=
    fun j => by simp [Logger.begin, Function.update_apply]
  have hlines : ∀ j, ((l.begin m).msgs j).lines = (l.msgs j).lines := fun j => by
    rw [hmsg]; split
    · subst_vars; simp [h.blank l.next le_rfl, LogMsg.blank]
    · rfl
  have hpath : ∀ k, k ≠ l.next → ((l.begin m).msgs k).path = (l.msgs k).path := fun k hk => by
    rw [hmsg, if_neg hk]
  have hway : ∀ m', (∀ k, m' = .nested k → k ≠ l.next) → (l.begin m).path m' = l.path m' := by
    rintro (_ | k) hk
    · rfl
    · exact hpath k (hk k rfl)
  have hpm : (l.begin m).path m = l.path m := hway m fun k hk => by have := hlt k hk; omega
  refine ⟨⟨fun i hi => ?_, fun i hi => ?_, fun i hi p hp => ?_⟩, fun j y hy => ?_, fun y hy => ?_,
    h.nodup, ?_, h.written, fun m' => ?_, h.blocks_of rfl rfl (List.infix_refl _) (List.infix_refl _)
      (List.infix_refl _) fun m' => .inl ⟨m', ?_⟩⟩
  · rw [hmsg, if_neg (by simp [Logger.begin] at hi; omega)]
    exact h.blank i (by simp [Logger.begin] at hi; omega)
  · simp only [Logger.begin, Nat.lt_succ_iff] at hi
    by_cases hin : i = l.next
    · subst hin; rw [hmsg, if_pos rfl]; simp [hpm]
    · have hi' : i < l.next := by omega
      rw [hmsg, if_neg hin, h.path_eq i hi', hway]
      intro k hk; have := h.parent_lt i hi' k hk; omega
  · simp only [Logger.begin, Nat.lt_succ_iff] at hi
    rw [hmsg] at hp
    split at hp
    · rename_i hin; subst hin; exact hlt p hp
    · have := h.parent_lt i (by omega) p hp; omega
  · rw [hlines] at hy
    obtain ⟨o, ho, hon, hj⟩ := h.origin j y hy
    exact ⟨o, ho, by simp [Logger.begin]; omega, by rw [hpath o (by omega)]; exact hj⟩
  · obtain ⟨h1, h2⟩ := h.fresh y hy
    exact ⟨h1, fun o ho => by have := h2 o ho; simp [Logger.begin]; omega⟩
  · have hb : (l.begin m).buffered = l.buffered := by
      simp only [buffered, Logger.begin, List.range_succ, List.flatMap_append, hlines]
      simp [h.blank l.next le_rfl, LogMsg.blank, Function.update_apply]
      refine List.flatMap_congr fun j hj => ?_
      simp at hj; simp [show j ≠ l.next by omega]
    show l.handed ~ l.output ++ l.lost ++ l.discarded ++ l.rejected ++ (l.begin m).buffered
    rw [hb]; exact h.perm
  · by_cases hm' : m' = .nested l.next
    · subst hm'
      suffices hnil : ((l.begin m).pipe (.nested l.next)).filter (·.origin = .nested l.next) = [] by
        rw [hnil]; exact List.nil_sublist _
      refine List.filter_eq_nil_iff.mpr fun y hy hyo => ?_
      simp only [decide_eq_true_eq] at hyo
      simp only [pipe, List.mem_append, List.mem_flatMap] at hy
      rcases hy with (hy | hy) | ⟨j, -, hy⟩
      · have := (h.fresh y (h.mem_handed (.inl hy))).2 l.next hyo; omega
      · have := (h.fresh y (h.mem_handed (.inr hy))).2 l.next hyo; omega
      · rw [hlines] at hy
        obtain ⟨o, ho, hon, -⟩ := h.origin j y hy
        rw [hyo] at ho; cases ho; omega
    · have hw : (l.begin m).pipe m' = l.pipe m' := by
        simp only [pipe, hlines]
        rw [hway m' fun k hk he => hm' (by rw [hk, he])]
        rfl
      rw [hw]; exact h.order m'
  · cases m' with
    | root => exact List.infix_refl _
    | nested j => show _ <:+: ((l.begin m).msgs j).lines; rw [hlines]; exact List.infix_refl _

/-- `msg.free()` after a `Commit`: the message is no longer `live` -/
theorem Inv.setLive {i : Nat} (hi : i < l.next) (b : Bool) :
    ({ l with msgs := Function.update l.msgs i { (l.msgs i) with live := b } }).Inv := by
  set l' : Logger := { l with msgs := Function.update l.msgs i { (l.msgs i) with live := b } } with hl'
  have hs : SameTree l l' := .of_update hi _ b _ rfl rfl
  have hml : ∀ j, (l'.msgs j).lines = (l.msgs j).lines := fun j => by
    rw [lines_of_update (rfl : l'.msgs = _)]; split <;> (try subst_vars) <;> rfl
  refine ⟨hs.tree h.toTree, fun j y hy => ?_, h.fresh, h.nodup, ?_, h.written, fun m => ?_,
    h.blocks_of rfl rfl (List.infix_refl _) (List.infix_refl _) (List.infix_refl _) fun m => .inl ⟨m, ?_⟩⟩
  · rw [hml] at hy
    obtain ⟨o, ho, hon, hj⟩ := h.origin j y hy
    exact ⟨o, ho, hon, by rw [hs.path]; exact hj⟩
  · show l.handed ~ l.output ++ l.lost ++ l.discarded ++ l.rejected ++ l'.buffered
    rw [buffered_congr l l' rfl rfl hml]; exact h.perm
  · rw [pipe_congr l l' rfl rfl hs.path hml]; exact h.order m
  · cases m with
    | root => exact List.infix_refl _
    | nested j => show _ <:+: (l'.msgs j).lines; rw [hml]; exact List.infix_refl _

/-- a `Commit` with no `Flush` before records the child's lines as one block -/
theorem Inv.addBlock (i : Nat) : ({ l with blocks := l.blocks ++ [(l.msgs i).lines] }).Inv := by
  refine ⟨⟨h.blank, h.path_eq, h.parent_lt⟩, h.origin, h.fresh, h.nodup, h.perm, h.written, h.order,
    fun b hb => ?_⟩
  rcases List.mem_append.mp hb with hb | hb
  · exact h.blocks b hb
  · rw [List.mem_singleton.mp hb]; exact .inl ⟨.nested i, List.infix_refl _⟩

theorem Inv.flush {m : MsgId} (hm : l.live m = true) (opens : Bool) : (l.flush opens m).Inv := by
  cases m with
  | root =>
    simp only [Logger.flush]; split
    · exact h
    · exact h.flushRoot opens
  | nested i =>
    have hi := h.toTree.lt_of_live hm i rfl
    simp only [Logger.flush]; split
    · exact h
    split
    · exact (h.moveUp hi).flushRoot opens
    · exact h.moveUp hi

theorem Inv.commit {i : Nat} (hi : (l.msgs i).live = true) (opens : Bool) : (l.commit i opens).Inv := by
  have hlt : i < l.next := h.toTree.lt_of_live (m := .nested i) hi i rfl
  have h1 : (if (l.msgs i).flushed then l else { l with blocks := l.blocks ++ [(l.msgs i).lines] }).Inv := by
    split
    · exact h
    · exact h.addBlock i
  have hl1 : (if (l.msgs i).flushed then l else { l with blocks := l.blocks ++ [(l.msgs i).lines] }).msgs =
      l.msgs := by split <;> rfl
  have h2 := h1.flush (m := .nested i) (by show (_ : LogMsg).live = true; rw [hl1]; exact hi) opens
  exact h2.setLive (by rw [flush_next]; split <;> exact hlt) false

end steps

theorem Inv.step {l : Logger} (h : l.Inv) (a : LogAct) : (l.step a).Inv := by
  cases a with
  | begin m => simp only [Logger.step]; split <;> rename_i hc; exacts [h.begin hc, h]
  | add m level => simp only [Logger.step]; split <;> rename_i hc; exacts [h.add hc.1 level, h]
  | flush m opens => simp only [Logger.step]; split <;> rename_i hc; exacts [h.flush hc opens, h]
  | commit i opens => simp only [Logger.step]; split <;> rename_i hc; exacts [h.commit hc opens, h]
  | reject i =>
    simp only [Logger.step]; split <;> rename_i hc
    exacts [h.reject (h.toTree.lt_of_live (m := .nested i) hc i rfl), h]
  | _ => exact ⟨⟨h.blank, h.path_eq, h.parent_lt⟩, h.origin, h.fresh, h.nodup, h.perm, h.written, h.order,
      h.blocks⟩

theorem Inv.run {l : Logger} (h : l.Inv) (acts : List LogAct) : (l.run acts).Inv := by
  induction acts generalizing l with
  | nil => exact h
  | cons a acts ih => exact ih (h.step a)

theorem inv_new (levels ccLevels : Nat) : (Logger.new levels ccLevels).Inv where
  blank _ _ := rfl
  path_eq _ hi := absurd hi (Nat.not_lt_zero _)
  parent_lt _ hi := absurd hi (Nat.not_lt_zero _)
  origin _ _ hy := by simp [Logger.new, LogMsg.blank] at hy
  fresh _ hy := by simp [Logger.new] at hy
  nodup := List.nodup_nil
  perm := by simp [places, buffered, Logger.new]
  written _ hy := by simp [Logger.new] at hy
  order m := by cases m <;> simp [pipe, Logger.path, Logger.new, LogMsg.blank, addedTo]
  blocks _ hb := by simp [Logger.new] at hb

/-! ## over every run -/

theorem Inv.mem_buffered {l : Logger} (h : l.Inv) {m : MsgId} {y : LogLine} (hy : y ∈ l.lines m) :
    y ∈ l.buffered := by
  cases m with
  | root => exact List.mem_append_left _ hy
  | nested j =>
    by_cases hj : j < l.next
    · exact List.mem_append_right _ (List.mem_flatMap.mpr ⟨j, List.mem_range.mpr hj, hy⟩)
    · simp [lines, h.blank j (by omega), LogMsg.blank] at hy

/-- a line written is nowhere else -/
theorem Inv.not_mem_of_output {l : Logger} (h : l.Inv) {y : LogLine} (hy : y ∈ l.output) :
    y ∉ l.lost ∧ y ∉ l.rejected ∧ y ∉ l.buffered := by
  have hnd : l.places.Nodup := h.perm.nodup_iff.mp h.nodup
  have h4 := List.nodup_append.mp hnd
  have h3 := List.nodup_append.mp h4.1
  have h2 := List.nodup_append.mp (List.nodup_append.mp h3.1).1
  exact ⟨fun hl => h2.2.2 hy hl, fun hr => h3.2.2 (by simp [hy]) hr, fun hb => h4.2.2 (by simp [hy]) hb⟩

/-- a recorded block with a line in the output stands there whole, its other lines of a level
in `levels` around it -/
theorem Inv.block_infix_output {l : Logger} (h : l.Inv) {b : List LogLine} (hb : b ∈ l.blocks)
    {x : LogLine} (hxb : x ∈ b) (hx : x ∈ l.output) : b.filter l.own <:+: l.output := by
  have hx' := h.not_mem_of_output hx
  rcases h.blocks b hb with ⟨m, hm⟩ | hb | hb | hb
  · exact absurd (h.mem_buffered (hm.subset hxb)) hx'.2.2
  · exact hb
  · exact absurd (hb.subset (List.mem_filter.mpr ⟨hxb, h.written x (List.mem_append_left _ hx)⟩)) hx'.1
  · exact absurd (hb.subset hxb) hx'.2.1

end Logger

open Logger in
/-- **What the logger keeps.**  Over every interleaving of steps from a new logger, each line
added is in exactly one place: written, handed to a nil `*os.File`, let go as of another
level, dropped by a `Reject`, or in one buffer.  Only lines of a level in `levels` are
written; the lines of each message are written in the order they were added; and once a line of
a child committed without an earlier `Flush` is written, all of that child's lines of a level
in `levels` are written as one block. -/
theorem run_lossless (levels ccLevels : Nat) (acts : List LogAct) :
    let l := (Logger.new levels ccLevels).run acts
    l.handed ~ l.places ∧ l.places.Nodup ∧
    (∀ x ∈ l.output, x ∈ l.handed ∧ l.own x = true) ∧
    (∀ m, l.output.filter (·.origin = m) <+ l.addedTo m) ∧
    (∀ b ∈ l.blocks, (∃ x ∈ b, l.own x = true ∧ x ∈ l.output) → b.filter l.own <:+: l.output) := by
  intro l
  have h : l.Inv := (inv_new levels ccLevels).run acts
  refine ⟨h.perm, h.perm.nodup_iff.mp h.nodup,
    fun x hx => ⟨h.mem_handed (.inl hx), h.written x (List.mem_append_left _ hx)⟩,
    fun m => (((List.sublist_append_left l.output l.root).trans
      (List.sublist_append_left _ _)).filter _).trans (h.order m),
    fun b hb ⟨x, hxb, _, hxout⟩ => h.block_infix_output hb hxb hxout⟩

/-- a logger in file mode whose log file cannot be opened, after one line was added to the
root and the root was flushed -/
def failedOpen : Logger := (Logger.new 1 0).run [.toFile, .add .root 1, .flush .root false]

/-- **A failed open loses the lines.**  `os.OpenFile` leaves a nil `*os.File` in `l.out`,
which is not a nil `io.Writer`: the flush hands the line to it, and the line is neither
written, nor buffered, nor rejected.  `l.out` is never reopened, so a line added later is lost
too, even when the file could now be opened. -/
theorem failed_open_loses_lines :
    failedOpen.handed.length = 1 ∧ failedOpen.lost = failedOpen.handed ∧ failedOpen.output = [] ∧
      failedOpen.buffered = [] ∧ failedOpen.rejected = [] ∧ failedOpen.out = .badFile ∧
      (failedOpen.run [.add .root 1, .flush .root true]).output = [] ∧
      (failedOpen.run [.add .root 1, .flush .root true]).lost.length = 2 := by
  decide

end IppUsb
