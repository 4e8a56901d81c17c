/-
  Calls within calls, and what is done in place step by step.

  The readers call one another in circles, so their nesting is not bounded by which of them there are.
  But within a call only deeper calls begin, or calls of readers that come before (`Call.Leads`), and
  deeper than `maxDepth` none begins; a call has room for so many others (`Nested.length_le`).

  What is done in place follows a reading of what is left of the tokens (`Follows`): it has the same
  result, stops where the rest begins, and on the way only nested calls are entered.  There is one
  rule for each of the steps.
-/
import RuleSieve.Proofs.Descent

namespace RuleSieve.Predicate.Descent

/-! ## Calls within calls -/

/-- At the same index and depth a reader calls only readers that come before it. -/
def Reader.order : Reader → Nat
  | .whole => 0
  | .args => 1
  | .primary => 2
  | .suffixed => 3
  | .signed => 4
  | .product => 5
  | .sum => 6
  | .comparison => 7
  | .negation => 8
  | .conjunction => 9

/-- The inner call begins no earlier than the outer one, and it is deeper, though not deeper than is
    allowed, or as deep and one of a reader that comes before. -/
structure Call.Leads (outer inner : Call) : Prop where
  index_le : outer.index ≤ inner.index
  deeper : outer.depth < inner.depth ∧ inner.depth ≤ maxDepth ∨
    inner.depth = outer.depth ∧ inner.reader.order < outer.reader.order

/-- A call leads to all calls within those it leads to. -/
theorem Call.Leads.trans {outer middle inner : Call} (h : outer.Leads middle)
    (h' : middle.Leads inner) : outer.Leads inner := by
  obtain ⟨hindex, hdeeper⟩ := h
  obtain ⟨hindex', hdeeper'⟩ := h'
  exact ⟨by omega, by omega⟩

/-- The calls, the innermost first, are nested: every one leads to those that come before it. -/
def Nested (calls : List Call) : Prop := calls.Pairwise fun inner outer => outer.Leads inner

/-- A call may be made within nested calls if the innermost leads to it. -/
theorem Nested.push {inner outer : Call} {calls : List Call} (h : Nested (outer :: calls))
    (hinner : outer.Leads inner) : Nested (inner :: outer :: calls) := by
  refine List.pairwise_cons.2 ⟨fun call hcall => ?_, h⟩
  rcases List.mem_cons.1 hcall with rfl | hcall
  · exact hinner
  · exact ((List.pairwise_cons.1 h).1 call hcall).trans hinner

/-- How many calls there can be within a call. -/
def Call.room (call : Call) : Nat := 10 * (maxDepth - call.depth) + call.reader.order

/-- There are ten readers, by their order. -/
theorem Reader.order_lt (reader : Reader) : reader.order < 10 := by
  cases reader <;> decide

/-- Each call leaves less room for further calls. -/
theorem Call.Leads.room_lt {outer inner : Call} (h : outer.Leads inner) : inner.room < outer.room := by
  have hinner := inner.reader.order_lt
  have hdeeper := h.deeper
  unfold Call.room
  omega

/-- The calls within the outermost one take up room, and leave that of the innermost. -/
theorem Nested.length_add_room_le {outermost call : Call} {rest : List Call}
    (h : Nested (call :: rest)) (hlast : [outermost] <:+ call :: rest) :
    rest.length + call.room ≤ outermost.room := by
  induction rest generalizing call with
  | nil =>
    obtain rfl : outermost = call := List.singleton_inj.1 (hlast.eq_of_length rfl)
    exact Nat.le_of_eq (Nat.zero_add _)
  | cons outer rest ih =>
    obtain ⟨hleads, hrest⟩ := List.pairwise_cons.1 h
    have hroom : call.room < outer.room := (hleads outer List.mem_cons_self).room_lt
    have hlast' : [outermost] <:+ outer :: rest := by
      rcases List.suffix_cons_iff.1 hlast with heq | hlast
      · exact absurd heq (by simp)
      · exact hlast
    have hle : rest.length + outer.room ≤ outermost.room := ih hrest hlast'
    rw [List.length_cons]
    omega

/-- There are no more calls within the outermost one than there is room for. -/
theorem Nested.length_le {outermost : Call} {calls : List Call} (h : Nested calls)
    (hlast : [outermost] <:+ calls) : calls.length ≤ outermost.room + 1 := by
  cases calls with
  | nil => exact Nat.zero_le _
  | cons call rest =>
    have hle := h.length_add_room_le hlast
    rw [List.length_cons]
    omega

/-- The calls that are active at some time after the call `start` began. -/
structure Bounded (start : Call) (calls : List Call) : Prop where
  starts : [start] <:+ calls
  /-- No call begins before one that it is within. -/
  onward : calls.Pairwise fun inner outer => outer.index ≤ inner.index
  /-- Between two calls of the same reader there is a way down. -/
  cycles : calls.Pairwise fun inner outer =>
    inner.reader = outer.reader → outer.depth < inner.depth ∧ inner.depth ≤ maxDepth
  length_le : calls.length ≤ 10 * (maxDepth - start.depth) + 10

/-- Nested calls that begin with a given one are bounded by what it leaves room for. -/
theorem Nested.bounded {start : Call} {calls : List Call} (h : Nested calls)
    (hstart : [start] <:+ calls) : Bounded start calls where
  starts := hstart
  onward := h.imp Call.Leads.index_le
  cycles := by
    refine h.imp fun hleads hreader => ?_
    rcases hleads.deeper with hdeeper | ⟨-, hlower⟩
    · exact hdeeper
    · exact absurd hlower (by rw [hreader]; exact Nat.lt_irrefl _)
  length_le := by
    have hlength := h.length_le hstart
    have horder := start.reader.order_lt
    unfold Call.room at hlength
    omega

/-- Wherever the outermost call is, a call that is deeper is not deeper than is allowed. -/
theorem Nested.deeper_le {start call : Call} {calls : List Call} (h : Nested calls)
    (hstart : [start] <:+ calls) (hcall : call ∈ calls) (hdeeper : start.depth < call.depth) :
    call.depth ≤ maxDepth := by
  obtain ⟨inner, rfl⟩ := hstart
  rcases List.mem_append.1 hcall with hinner | hlast
  · have hleads : start.Leads call :=
      (List.pairwise_append.1 h).2.2 call hinner start (List.mem_singleton_self start)
    rcases hleads.deeper with ⟨-, hallowed⟩ | ⟨hsame, -⟩
    · exact hallowed
    · exact absurd hsame (Nat.ne_of_gt hdeeper)
  · rw [List.mem_singleton.1 hlast] at hdeeper
    exact absurd hdeeper (Nat.lt_irrefl _)

/-- Where the outermost call is not deeper than is allowed, none of the calls is. -/
theorem Nested.depth_le {start : Call} {calls : List Call} (h : Nested calls)
    (hstart : [start] <:+ calls) (hdepth : start.depth ≤ maxDepth) :
    ∀ call ∈ calls, call.depth ≤ maxDepth := by
  intro call hcall
  rcases Nat.lt_or_ge start.depth call.depth with hdeeper | hle
  · exact h.deeper_le hstart hcall hdeeper
  · exact Nat.le_trans hle hdepth

/-! ## Going on -/

variable {stop : Nat} {ts us : List Lexeme} {α β : Type}

/-- From the first state to the second the index does not go back, nor past the end, and what was
    written down are calls within the calls `base`. -/
structure Onward (ts : List Lexeme) (base : List Call) (s s' : State) : Prop where
  index_le : s.index ≤ s'.index
  index_end : s'.index ≤ max s.index ts.length
  entered : ∃ new, s'.entered = new ++ s.entered ∧ ∀ calls ∈ new, base <:+ calls ∧ Nested calls

namespace Onward

variable {base : List Call} {s s' s'' : State}

/-- What neither moves the index nor calls a reader goes on. -/
theorem of_eq (hindex : s'.index = s.index) (hentered : s'.entered = s.entered) :
    Onward ts base s s' :=
  ⟨by omega, by omega, [], by simpa using hentered, by simp⟩

/-- Passing tokens goes on, up to the end of the tokens. -/
theorem pass {count : Nat} (h : s.index + count ≤ ts.length) : Onward ts base s (s.pass count) :=
  ⟨Nat.le_add_right _ _, Nat.le_trans h (Nat.le_max_right _ _), [], rfl, by simp⟩

/-- Calling a reader goes on, as the call is written down. -/
theorem enter (h : Nested base) : Onward ts base s (s.enter base) := by
  refine ⟨Nat.le_refl _, Nat.le_max_left _ _, [base], rfl, fun calls hcalls => ?_⟩
  obtain rfl := List.mem_singleton.1 hcalls
  exact ⟨List.suffix_refl _, h⟩

/-- Going on twice is going on. -/
theorem trans (h : Onward ts base s s') (h' : Onward ts base s' s'') : Onward ts base s s'' := by
  obtain ⟨hle, hend, new, hnew, hcalls⟩ := h
  obtain ⟨hle', hend', new', hnew', hcalls'⟩ := h'
  refine ⟨by omega, by omega, new' ++ new, ?_, fun calls hmem => ?_⟩
  · rw [hnew', hnew, List.append_assoc]
  · exact (List.mem_append.1 hmem).elim (hcalls' calls) (hcalls calls)

/-- Calls within inner calls are within outer ones. -/
theorem mono {base' : List Call} (h : Onward ts base' s s') (hbase : base <:+ base') :
    Onward ts base s s' := by
  obtain ⟨hle, hend, new, hnew, hcalls⟩ := h
  exact ⟨hle, hend, new, hnew, fun calls hmem =>
    ⟨hbase.trans (hcalls calls hmem).1, (hcalls calls hmem).2⟩⟩

/-- What is written down from the beginning of a call on are nested calls within it, and the call itself
    is the first thing that is written down. -/
theorem entered_eq {start : Call} (h : Onward ts [start] s s') (hs : s.entered = [[start]]) :
    s'.entered.getLast? = some [start] ∧
      ∀ calls ∈ s'.entered, [start] <:+ calls ∧ Nested calls := by
  obtain ⟨-, -, new, hnew, hcalls⟩ := h
  rw [hnew, hs]
  refine ⟨List.getLast?_concat .., fun calls hmem => ?_⟩
  rcases List.mem_append.1 hmem with hmem | hmem
  · exact hcalls calls hmem
  · rw [List.mem_singleton.1 hmem]
    exact ⟨List.suffix_refl _, List.pairwise_singleton _ _⟩

end Onward

/-! ## Following a reading -/

/-- What is done from the state on follows a reading: it comes to an end with the same result, at the
    index where the rest of the tokens begins.  On the way it goes up `levels` levels more than down,
    and the reading `risen` levels. -/
inductive Follows (ts : List Lexeme) (base : List Call) (s : State) (levels risen : Nat) :
    Option (Except Failure α × State) → Except Error (α × Cursor) → Prop
  | ok {a : α} {s' : State} {depth : Nat} (hs : Onward ts base s s')
      (hlevels : s'.depth + levels = s.depth) (hrisen : depth + risen = s.depth) :
      Follows ts base s levels risen (some (.ok a, s')) (.ok (a, ⟨ts.drop s'.index, depth⟩))
  | error {e : Error} {s' : State} (hs : Onward ts base s s') :
      Follows ts base s levels risen (some (.error (.problem e), s')) (.error e)

namespace Follows

variable {base : List Call} {s s' : State} {levels risen : Nat}

/-- What holds from a later state on holds from the earlier one. -/
theorem of_onward {k : Nat} {outcome : Option (Except Failure α × State)}
    {reading : Except Error (α × Cursor)} (hs : Onward ts base s s')
    (hdepth : s'.depth = s.depth + k)
    (h : Follows ts base s' (levels + k) (risen + k) outcome reading) :
    Follows ts base s levels risen outcome reading := by
  cases h with
  | ok hs' hlevels hrisen => exact .ok (hs.trans hs') (by omega) (by omega)
  | error hs' => exact .error (hs.trans hs')

theorem mono {base' : List Call} {outcome : Option (Except Failure α × State)}
    {reading : Except Error (α × Cursor)} (h : Follows ts base' s levels risen outcome reading)
    (hbase : base <:+ base') : Follows ts base s levels risen outcome reading := by
  cases h with
  | ok hs hlevels hrisen => exact .ok (hs.mono hbase) hlevels hrisen
  | error hs => exact .error (hs.mono hbase)

/-- One thing after another; the first leaves the depth as it is. -/
theorem bind {x : Action α} {f : α → Action β} {reading : Except Error (α × Cursor)}
    {g : α × Cursor → Except Error (β × Cursor)} (hx : Follows ts base s 0 0 (x s) reading)
    (hf : ∀ a s', Onward ts base s s' → s'.depth = s.depth →
      reading = .ok (a, ⟨ts.drop s'.index, s'.depth⟩) →
        Follows ts base s' levels risen (f a s') (g (a, ⟨ts.drop s'.index, s'.depth⟩))) :
    Follows ts base s levels risen ((x >>= f) s) (reading >>= g) := by
  generalize hr : reading = r at hx
  generalize ho : x s = outcome at hx
  cases hx with
  | @ok a s' depth hs hlevels hrisen =>
    obtain rfl : depth = s'.depth := by omega
    rw [bind_of_ok ho]
    exact of_onward (k := 0) hs hlevels (hf a s' hs hlevels hr)
  | error hs =>
    rw [bind_of_error ho]
    exact .error hs

/-- What is done in a call, from where it was entered. -/
theorem enter {reader : Reader} {calls : List Call} {f : List Call → Action α}
    {reading : Except Error (α × Cursor)}
    (h : Follows ts base (s.enter (⟨reader, s.index, s.depth⟩ :: calls)) levels risen
      (f (⟨reader, s.index, s.depth⟩ :: calls) (s.enter (⟨reader, s.index, s.depth⟩ :: calls)))
      reading) :
    Follows ts base (s.enter (⟨reader, s.index, s.depth⟩ :: calls)) levels risen
      ((Descent.enter reader calls >>= f) s) reading := h

/-- What is done in a call is done within the calls that it is within. -/
theorem within {call : Call} {calls : List Call} {outcome : Option (Except Failure α × State)}
    {reading : Except Error (α × Cursor)} (hnested : Nested (call :: calls))
    (h : Follows ts (call :: calls) (s.enter (call :: calls)) levels risen outcome reading) :
    Follows ts calls s levels risen outcome reading :=
  (of_onward (k := 0) (.enter hnested) rfl h).mono (List.suffix_cons _ _)

/-- Something one level down, where there is a way down. -/
theorem down {x : Action α} {reading : Nat → Except Error (α × Cursor)}
    (hroom : s.depth + 1 < Word.count) (hus : ts.drop s.index = us)
    (h : s.depth < maxDepth →
      Follows ts base s.down (levels + 1) (risen + 1) (x s.down) (reading (s.depth + 1))) :
    Follows ts base s levels risen ((goDown stop ts >>= fun _ => x) s)
      (descend stop us s.depth >>= reading) := by
  subst hus
  have hs : Onward ts base s s.down := .of_eq rfl rfl
  unfold descend
  by_cases hdepth : s.depth < maxDepth
  · rw [bind_of_ok (goDown_of_lt hroom hdepth), if_pos hdepth]
    exact of_onward hs rfl (h hdepth)
  · rw [bind_of_fail (goDown_of_le hroom (Nat.not_lt.1 hdepth)), if_neg hdepth]
    exact .error hs

/-- The end of what goes up all levels that it has gone down. -/
theorem up {a : α} {depth : Nat} (hlevels : levels ≤ s.depth) (hrisen : depth + risen = s.depth)
    (hus : ts.drop s.index = us) :
    Follows ts base s levels risen ((goUp levels >>= fun _ => pure a) s) (.ok (a, ⟨us, depth⟩)) := by
  subst hus
  rw [bind_of_ok (goUp_of_le hlevels)]
  exact .ok (.of_eq rfl rfl) (Nat.sub_add_cancel hlevels) hrisen

/-- The reading may go up a level that was counted already. -/
theorem ascend {outcome : Option (Except Failure α × State)} {reading : Except Error (α × Cursor)}
    (h : Follows ts base s levels 0 outcome reading) (hdepth : 0 < s.depth) :
    Follows ts base s levels 1 outcome (reading >>= fun r => .ok (r.1, r.2.ascend 1)) := by
  cases h with
  | @ok a s' depth hs hlevels hrisen =>
    refine .ok hs hlevels ?_
    show depth - 1 + 1 = s.depth
    omega
  | error hs => exact .error hs

/-- Something that begins after the next token, which is passed over. -/
theorem pass {lexeme : Lexeme} {outcome : Option (Except Failure α × State)}
    {reading : Except Error (α × Cursor)} (hus : ts.drop s.index = lexeme :: us)
    (h : ts.drop (s.pass 1).index = us →
      Follows ts base (s.pass 1) levels risen outcome reading) :
    Follows ts base s levels risen outcome reading := by
  have hlength : ts.length - s.index = us.length + 1 := by
    rw [← List.length_drop, hus, List.length_cons]
  have hrest : ts.drop (s.index + 1) = us := by
    rw [← List.tail_drop, hus]
    rfl
  exact of_onward (k := 0) (.pass (by omega)) rfl (h hrest)

/-- Something that depends on whether the next token is this one, which is passed over then. -/
theorem eat [Addressable ts] {token : Token} (htoken : hasValue token = false) {x y : Action α}
    {reading : Except Error (α × Cursor)}
    (hfound : ∀ lexeme us, ts.drop s.index = lexeme :: us → lexeme.token = token →
      ts.drop (s.pass 1).index = us → Follows ts base (s.pass 1) levels risen (x (s.pass 1)) reading)
    (hother : (∀ lexeme ∈ (ts.drop s.index).head?, lexeme.token ≠ token) →
      Follows ts base s levels risen (y s) reading) :
    Follows ts base s levels risen
      ((Descent.eat ts token >>= fun found => if found = true then x else y) s) reading := by
  rcases head_cases (·.token = token) (ts.drop s.index) with hnext | ⟨lexeme, us, hus, hnext⟩
  · rw [bind_of_ok (eat_of_ne htoken hnext)]
    exact hother hnext
  · rw [bind_of_ok (eat_of_eq htoken hus hnext)]
    exact pass hus fun hrest => hfound lexeme us hus hnext hrest

/-- Something after a token that has to be the next one. -/
theorem expect [Addressable ts] {token : Token} (htoken : hasValue token = false) {x : Action α}
    {reading : Except Error (α × Cursor)}
    (hfound : ∀ lexeme us, ts.drop s.index = lexeme :: us → lexeme.token = token →
      ts.drop (s.pass 1).index = us → Follows ts base (s.pass 1) levels risen (x (s.pass 1)) reading)
    (hother : (∀ lexeme ∈ (ts.drop s.index).head?, lexeme.token ≠ token) →
      reading = problemAt stop (ts.drop s.index) (.expected token)) :
    Follows ts base s levels risen ((Descent.expect stop ts token >>= fun _ => x) s) reading := by
  rcases head_cases (·.token = token) (ts.drop s.index) with hnext | ⟨lexeme, us, hus, hnext⟩
  · have hexpect : Descent.expect stop ts token s = _ := bind_of_ok (eat_of_ne htoken hnext)
    rw [hother hnext, bind_of_error hexpect]
    exact .error (.of_eq rfl rfl)
  · have hexpect : Descent.expect stop ts token s = _ := bind_of_ok (eat_of_eq htoken hus hnext)
    rw [bind_of_ok hexpect]
    exact pass hus fun hrest => hfound lexeme us hus hnext hrest

end Follows

end RuleSieve.Predicate.Descent
