/-
**Cutting messages into fragments and putting them together again.**

A format reads a fragment as a piece of a message: a tag, the chunk, where the chunk starts and how
long the message is. An assembly collects the pieces of one message in order and is dropped when it
takes too long.

* `add_next`, `add_first`, `add_gap` — what one fragment does to an assembly;
* `feedAll_pieces` — the pieces of a message, fed among fragments that are rejected, give the message
  at the last piece and nothing before.
-/

import Mathlib

namespace Atterm.Foundation

structure Piece (τ : Type) where
  tag : τ
  offset : ℕ
  total : ℕ
  chunk : List UInt8
deriving DecidableEq, Repr

/-- A message that is being put together. -/
structure Assembly (τ : Type) where
  tag : τ
  total : ℕ
  next : ℕ
  startedAt : ℤ
  buffer : List UInt8
deriving DecidableEq, Repr

/-- How a fragment is read, what a complete message is delivered as, and how long it may take. -/
structure FragmentFormat (τ ω ε : Type) where
  parse : List UInt8 → Except ε (Piece τ)
  deliver : τ → List UInt8 → ω
  timeout : ℤ
  late : ε
  firstOffset : ℕ → ε
  mismatch : ε

/-- A chunk of at most `size` octets at every offset from the given one. -/
def piecesFrom {τ : Type} (size : ℕ) (tag : τ) (message : List UInt8) : ℕ → ℕ → List (Piece τ)
  | 0, _ => []
  | fuel + 1, offset =>
    if offset < message.length then
      { tag := tag
        offset := offset
        total := message.length
        chunk := message.extract offset (min message.length (offset + size)) } ::
        piecesFrom size tag message fuel (offset + size)
    else []

def pieces {τ : Type} (size : ℕ) (tag : τ) (message : List UInt8) : List (Piece τ) :=
  piecesFrom size tag message message.length 0

section Pieces

variable {τ : Type} {size : ℕ} {tag : τ} {message : List UInt8}

theorem length_chunk {offset stop : ℕ} (bounded : stop ≤ message.length) :
    (message.extract offset stop).length = stop - offset := by
  rw [List.extract_eq_take_drop, List.length_take, List.length_drop]
  omega

variable (message) in
theorem take_append_chunk {offset stop : ℕ} (ordered : offset ≤ stop) :
    message.take offset ++ message.extract offset stop = message.take stop := by
  have split : stop = offset + (stop - offset) := by omega
  rw [List.extract_eq_take_drop]
  conv_rhs => rw [split]
  exact List.take_add.symm

theorem piecesFrom_of_le {fuel offset : ℕ} (finished : message.length ≤ offset) :
    piecesFrom size tag message fuel offset = [] := by
  cases fuel with
  | zero => rfl
  | succ fuel => rw [piecesFrom, if_neg (by omega)]

theorem piecesFrom_of_lt {fuel offset : ℕ} (inside : offset < message.length) :
    piecesFrom size tag message (fuel + 1) offset =
      { tag := tag
        offset := offset
        total := message.length
        chunk := message.extract offset (min message.length (offset + size)) } ::
        piecesFrom size tag message fuel (offset + size) := by
  rw [piecesFrom, if_pos inside]

theorem of_mem_piecesFrom {fuel offset : ℕ} (positive : 0 < size) {piece : Piece τ}
    (listed : piece ∈ piecesFrom size tag message fuel offset) :
    piece.tag = tag ∧ piece.total = message.length ∧ 0 < piece.chunk.length ∧
      piece.chunk.length ≤ size ∧ piece.offset + piece.chunk.length ≤ message.length := by
  induction fuel generalizing offset with
  | zero => cases listed
  | succ fuel ih =>
    by_cases inside : offset < message.length
    · rw [piecesFrom_of_lt inside] at listed
      rcases List.mem_cons.mp listed with rfl | later
      · rw [length_chunk (by omega)]
        exact ⟨rfl, rfl, by omega, by omega, by simp only; omega⟩
      · exact ih later
    · rw [piecesFrom_of_le (by omega)] at listed
      cases listed

end Pieces

namespace FragmentFormat

variable {τ ω ε : Type} [DecidableEq τ] (format : FragmentFormat τ ω ε)

def expired (assembly : Option (Assembly τ)) (now : ℤ) : Bool :=
  match assembly with
  | none => false
  | some assembly => decide (format.timeout < now - assembly.startedAt)

/-- Append a piece to the message it continues; the last piece delivers it. -/
def extend (assembly : Assembly τ) (piece : Piece τ) : Except ε (Option ω) × Option (Assembly τ) :=
  if piece.tag ≠ assembly.tag ∨ piece.total ≠ assembly.total ∨ piece.offset ≠ assembly.next then
    (.error format.mismatch, some assembly)
  else
    let buffer := assembly.buffer ++ piece.chunk
    let next := assembly.next + piece.chunk.length
    if next ≠ assembly.total then
      (.ok none, some { assembly with buffer := buffer, next := next })
    else (.ok (some (format.deliver assembly.tag buffer)), none)

def add (assembly : Option (Assembly τ)) (fragment : List UInt8) (now : ℤ) :
    Except ε (Option ω) × Option (Assembly τ) :=
  if format.expired assembly now then (.error format.late, none)
  else
    match format.parse fragment with
    | .error e => (.error e, assembly)
    | .ok piece =>
      match assembly with
      | some assembly => format.extend assembly piece
      | none =>
        if piece.offset ≠ 0 then (.error (format.firstOffset piece.offset), none)
        else format.extend ⟨piece.tag, piece.total, 0, now, []⟩ piece

/-- A fragment with the time it is fed at; `own` marks the fragments of one message. -/
structure Fed where
  own : Bool
  fragment : List UInt8
  now : ℤ
deriving DecidableEq, Repr

/-- What each fragment of a feed gives, and the assembly after the last. -/
def feedAll : Option (Assembly τ) → List Fed → List (Except ε (Option ω)) × Option (Assembly τ)
  | assembly, [] => ([], assembly)
  | assembly, fed :: rest =>
    let added := format.add assembly fed.fragment fed.now
    let later := feedAll added.2 rest
    (added.1 :: later.1, later.2)

def own (feed : List Fed) : List Fed := feed.filter (·.own)

/-- What the marked fragments of a feed give. -/
def ownResults (feed : List Fed) (results : List (Except ε (Option ω))) :
    List (Except ε (Option ω)) :=
  ((feed.zip results).filter (·.1.own)).map (·.2)

variable {format}

/-! ### One fragment -/

theorem add_expired {assembly : Option (Assembly τ)} {fragment : List UInt8} {now : ℤ}
    (expired : format.expired assembly now = true) :
    format.add assembly fragment now = (.error format.late, none) := by
  rw [add, if_pos expired]

theorem add_unreadable {assembly : Option (Assembly τ)} {fragment : List UInt8} {now : ℤ} {e : ε}
    (timely : format.expired assembly now = false) (unreadable : format.parse fragment = .error e) :
    format.add assembly fragment now = (.error e, assembly) := by
  rw [add, if_neg (by simp [timely]), unreadable]

theorem add_next {assembly : Assembly τ} {fragment : List UInt8} {now : ℤ} {piece : Piece τ}
    (timely : format.expired (some assembly) now = false)
    (reads : format.parse fragment = .ok piece) :
    format.add (some assembly) fragment now = format.extend assembly piece := by
  rw [add, if_neg (by simp [timely]), reads]

theorem add_first {fragment : List UInt8} {now : ℤ} {piece : Piece τ}
    (reads : format.parse fragment = .ok piece) (first : piece.offset = 0) :
    format.add none fragment now = format.extend ⟨piece.tag, piece.total, 0, now, []⟩ piece := by
  rw [add, if_neg (by simp [expired]), reads]
  simp [first]

theorem add_gap {fragment : List UInt8} {now : ℤ} {piece : Piece τ}
    (reads : format.parse fragment = .ok piece) (gap : piece.offset ≠ 0) :
    format.add none fragment now = (.error (format.firstOffset piece.offset), none) := by
  rw [add, if_neg (by simp [expired]), reads]
  exact if_pos gap

theorem add_rejects {fragment : List UInt8} {e : ε} (unreadable : format.parse fragment = .error e)
    (assembly : Option (Assembly τ)) (now : ℤ) :
    ∃ e, (format.add assembly fragment now).1 = .error e := by
  cases timely : format.expired assembly now with
  | true => exact ⟨_, by rw [add_expired timely]⟩
  | false => exact ⟨_, by rw [add_unreadable timely unreadable]⟩

theorem reads_of_add {assembly : Option (Assembly τ)} {fragment : List UInt8} {now : ℤ}
    {result : Option ω} (accepted : (format.add assembly fragment now).1 = .ok result) :
    ∃ piece, format.parse fragment = .ok piece := by
  cases reads : format.parse fragment with
  | error e =>
    obtain ⟨e', rejected⟩ := add_rejects reads assembly now
    rw [rejected] at accepted
    cases accepted
  | ok piece => exact ⟨piece, rfl⟩

theorem extend_cases (assembly : Assembly τ) (piece : Piece τ) :
    ((piece.tag ≠ assembly.tag ∨ piece.total ≠ assembly.total ∨ piece.offset ≠ assembly.next) ∧
        format.extend assembly piece = (.error format.mismatch, some assembly)) ∨
      (piece.tag = assembly.tag ∧ piece.total = assembly.total ∧ piece.offset = assembly.next ∧
        ∃ result after, format.extend assembly piece = (.ok result, after)) := by
  by_cases other : piece.tag ≠ assembly.tag ∨ piece.total ≠ assembly.total ∨
      piece.offset ≠ assembly.next
  · exact Or.inl ⟨other, by rw [extend, if_pos other]⟩
  · have same := other
    push Not at same
    refine Or.inr ⟨same.1, same.2.1, same.2.2, ?_⟩
    rw [extend, if_neg other]
    by_cases more : assembly.next + piece.chunk.length ≠ assembly.total
    · exact ⟨_, _, if_pos more⟩
    · exact ⟨_, _, if_neg more⟩

theorem add_of_reads {fragment : List UInt8} {piece : Piece τ} (patient : 0 ≤ format.timeout)
    (reads : format.parse fragment = .ok piece) :
    ∃ assembly now result, (format.add assembly fragment now).1 = .ok result := by
  refine ⟨some ⟨piece.tag, piece.total, piece.offset, 0, []⟩, 0, ?_⟩
  have timely : format.expired (some ⟨piece.tag, piece.total, piece.offset, 0, []⟩) 0 = false :=
    decide_eq_false (by simpa using patient)
  rw [add_next timely reads]
  rcases extend_cases ⟨piece.tag, piece.total, piece.offset, 0, []⟩ piece with
    ⟨other, -⟩ | ⟨-, -, -, result, after, extended⟩
  · simp at other
  · exact ⟨result, by rw [extended]⟩

/-- **A rejected fragment leaves the assembly**, unless the assembly has taken too long. -/
theorem add_error {assembly : Option (Assembly τ)} {fragment : List UInt8} {now : ℤ} {e : ε}
    (timely : format.expired assembly now = false)
    (rejected : (format.add assembly fragment now).1 = .error e) :
    (format.add assembly fragment now).2 = assembly := by
  cases reads : format.parse fragment with
  | error e' => rw [add_unreadable timely reads]
  | ok piece =>
    cases assembly with
    | some assembly =>
      rw [add_next timely reads] at rejected ⊢
      rcases extend_cases assembly piece with ⟨-, refused⟩ | ⟨-, -, -, result, after, extended⟩
      · rw [refused]
      · rw [extended] at rejected
        cases rejected
    | none =>
      by_cases first : piece.offset = 0
      · -- what the first piece opens it also continues
        rw [add_first reads first] at rejected
        rcases extend_cases ⟨piece.tag, piece.total, 0, now, []⟩ piece with
          ⟨other, -⟩ | ⟨-, -, -, result, after, extended⟩
        · simp [first] at other
        · rw [extended] at rejected
          cases rejected
      · rw [add_gap reads first]

/-! ### The pieces of a message -/

def holding (tag : τ) (message : List UInt8) (startedAt : ℤ) (offset : ℕ) : Assembly τ :=
  ⟨tag, message.length, offset, startedAt, message.take offset⟩

/-- What the pieces of a message give: nothing, and the message at the last. -/
def delivered (count : ℕ) (output : ω) : List (Except ε (Option ω)) :=
  List.replicate (count - 1) (.ok none) ++ [.ok (some output)]

variable {size : ℕ} {tag : τ} {message : List UInt8} {startedAt : ℤ}

theorem extend_holding {offset : ℕ} (inside : offset < message.length) :
    format.extend (holding tag message startedAt offset)
        { tag := tag
          offset := offset
          total := message.length
          chunk := message.extract offset (min message.length (offset + size)) } =
      if offset + size < message.length then
        (.ok none, some (holding tag message startedAt (offset + size)))
      else (.ok (some (format.deliver tag message)), none) := by
  have ordered : offset ≤ min message.length (offset + size) := by omega
  have appended := take_append_chunk message ordered
  rw [extend, if_neg (by simp [holding])]
  simp only [holding, length_chunk (min_le_left _ _), appended]
  by_cases more : offset + size < message.length
  · have next : offset + (min message.length (offset + size) - offset) = offset + size := by omega
    have stop : min message.length (offset + size) = offset + size := by omega
    rw [if_pos more, next, if_pos (by omega), stop]
  · rw [if_neg more, if_neg (by omega), List.take_of_length_le (by omega)]

/-! ### Feeds -/

theorem feedAll_cons (assembly : Option (Assembly τ)) (fed : Fed) (rest : List Fed) :
    format.feedAll assembly (fed :: rest) =
      ((format.add assembly fed.fragment fed.now).1 ::
          (format.feedAll (format.add assembly fed.fragment fed.now).2 rest).1,
        (format.feedAll (format.add assembly fed.fragment fed.now).2 rest).2) := rfl

/-- Every fragment of a feed that is not marked is rejected. -/
def OthersRejected (feed : List Fed) (results : List (Except ε (Option ω))) : Prop :=
  ∀ pair ∈ feed.zip results, pair.1.own = false → ∃ e, pair.2 = .error e

theorem OthersRejected.tail {fed : Fed} {rest : List Fed} {result : Except ε (Option ω)}
    {results : List (Except ε (Option ω))}
    (rejected : OthersRejected (fed :: rest) (result :: results)) : OthersRejected rest results :=
  fun pair listed => rejected pair (List.mem_cons_of_mem _ listed)

theorem OthersRejected.head {fed : Fed} {rest : List Fed} {result : Except ε (Option ω)}
    {results : List (Except ε (Option ω))}
    (rejected : OthersRejected (fed :: rest) (result :: results)) (other : fed.own = false) :
    ∃ e, result = .error e := rejected (fed, result) List.mem_cons_self other

theorem feedAll_rejected {assembly : Option (Assembly τ)} {fed : Fed} {rest : List Fed}
    (other : fed.own = false) (timely : format.expired assembly fed.now = false)
    (rejected : OthersRejected (fed :: rest) (format.feedAll assembly (fed :: rest)).1) :
    (format.feedAll assembly (fed :: rest)).2 = (format.feedAll assembly rest).2 ∧
      ownResults (fed :: rest) (format.feedAll assembly (fed :: rest)).1 =
        ownResults rest (format.feedAll assembly rest).1 ∧
      OthersRejected rest (format.feedAll assembly rest).1 := by
  rw [feedAll_cons] at rejected ⊢
  obtain ⟨e, refused⟩ := rejected.head other
  have same := add_error timely refused
  have later := rejected.tail
  rw [same] at later ⊢
  exact ⟨rfl, by simp [ownResults, other], later⟩

theorem feedAll_foreign {feed : List Fed} (foreign : own feed = [])
    (rejected : OthersRejected feed (format.feedAll none feed).1) :
    (format.feedAll none feed).2 = none ∧ ownResults feed (format.feedAll none feed).1 = [] := by
  induction feed with
  | nil => exact ⟨rfl, rfl⟩
  | cons fed rest ih =>
    have other : fed.own = false := by
      by_contra mine
      simp [own, mine] at foreign
    obtain ⟨after, results, later⟩ := feedAll_rejected other rfl rejected
    rw [after, results]
    exact ih (by simpa [own, other] using foreign) later

variable {encode : Piece τ → List UInt8}

omit [DecidableEq τ] in
theorem own_cons {fed : Fed} {rest : List Fed} {fuel offset : ℕ} (mine : fed.own = true)
    (enough : message.length ≤ offset + fuel)
    (fragments : (own (fed :: rest)).map (·.fragment) =
      (piecesFrom size tag message fuel offset).map encode) :
    offset < message.length ∧ ∃ fuel', fuel = fuel' + 1 := by
  by_cases inside : offset < message.length
  · exact ⟨inside, fuel - 1, by omega⟩
  · rw [piecesFrom_of_le (by omega)] at fragments
    simp [own, mine] at fragments

omit [DecidableEq τ] in
theorem own_tail {fed : Fed} {rest : List Fed} {fuel offset : ℕ} (mine : fed.own = true)
    (inside : offset < message.length)
    (fragments : (own (fed :: rest)).map (·.fragment) =
      (piecesFrom size tag message (fuel + 1) offset).map encode) :
    fed.fragment = encode
        { tag := tag
          offset := offset
          total := message.length
          chunk := message.extract offset (min message.length (offset + size)) } ∧
      (own rest).map (·.fragment) =
        (piecesFrom size tag message fuel (offset + size)).map encode := by
  rw [piecesFrom_of_lt inside] at fragments
  simpa [own, mine] using fragments

theorem feedAll_cons_own {assembly : Option (Assembly τ)} {fed : Fed} {rest : List Fed}
    {fuel offset : ℕ}
    (mine : fed.own = true) (enough : message.length ≤ offset + size + fuel)
    (fragments : (own rest).map (·.fragment) =
      (piecesFrom size tag message fuel (offset + size)).map encode)
    (added : format.add assembly fed.fragment fed.now =
      if offset + size < message.length then
        (.ok none, some (holding tag message startedAt (offset + size)))
      else (.ok (some (format.deliver tag message)), none))
    (later : offset + size < message.length →
      let fed := format.feedAll (some (holding tag message startedAt (offset + size))) rest
      OthersRejected rest fed.1 → fed.2 = none ∧ ownResults rest fed.1 =
        delivered (own rest).length (format.deliver tag message))
    (rejected : OthersRejected (fed :: rest) (format.feedAll assembly (fed :: rest)).1) :
    (format.feedAll assembly (fed :: rest)).2 = none ∧
      ownResults (fed :: rest) (format.feedAll assembly (fed :: rest)).1 =
        delivered (own (fed :: rest)).length (format.deliver tag message) := by
  rw [feedAll_cons, added] at rejected ⊢
  by_cases more : offset + size < message.length
  · rw [if_pos more] at rejected ⊢
    obtain ⟨after, results⟩ := later more rejected.tail
    refine ⟨after, ?_⟩
    -- another piece is missing, so this one is not the last
    have missing : 0 < (own rest).length := by
      have count := congrArg List.length fragments
      obtain ⟨fuel', rfl⟩ : ∃ fuel', fuel = fuel' + 1 := ⟨fuel - 1, by omega⟩
      rw [piecesFrom_of_lt more] at count
      simp at count
      omega
    obtain ⟨count, counted⟩ : ∃ count, (own rest).length = count + 1 :=
      ⟨(own rest).length - 1, by omega⟩
    have first : ownResults (fed :: rest) (.ok none ::
        (format.feedAll (some (holding tag message startedAt (offset + size))) rest).1) =
        .ok none :: ownResults rest
          (format.feedAll (some (holding tag message startedAt (offset + size))) rest).1 := by
      simp [ownResults, mine]
    have length : (own (fed :: rest)).length = (own rest).length + 1 := by simp [own, mine]
    rw [first, results, length, counted]
    rfl
  · rw [if_neg more] at rejected ⊢
    rw [piecesFrom_of_le (by omega)] at fragments
    have foreign : own rest = [] := by simpa using fragments
    obtain ⟨after, results⟩ := feedAll_foreign foreign rejected.tail
    refine ⟨after, ?_⟩
    have length : (own (fed :: rest)).length = 1 := by
      have head : own (fed :: rest) = fed :: own rest := by simp [own, mine]
      rw [head, foreign]
      rfl
    have last : ownResults (fed :: rest) (.ok (some (format.deliver tag message)) ::
        (format.feedAll none rest).1) =
        .ok (some (format.deliver tag message)) :: ownResults rest (format.feedAll none rest).1 := by
      simp [ownResults, mine]
    rw [last, results, length]
    rfl

theorem feedAll_holding {feed : List Fed} {fuel offset : ℕ} (positive : 0 < size)
    (missing : offset < message.length) (enough : message.length ≤ offset + fuel)
    (reads : ∀ piece ∈ piecesFrom size tag message fuel offset,
      format.parse (encode piece) = .ok piece)
    (fragments : (own feed).map (·.fragment) =
      (piecesFrom size tag message fuel offset).map encode)
    (timely : ∀ fed ∈ feed, fed.now - startedAt ≤ format.timeout) :
    let fed := format.feedAll (some (holding tag message startedAt offset)) feed
    OthersRejected feed fed.1 → fed.2 = none ∧
      ownResults feed fed.1 = delivered (own feed).length (format.deliver tag message) := by
  intro result rejected
  induction feed generalizing fuel offset with
  | nil =>
    obtain ⟨fuel', rfl⟩ : ∃ fuel', fuel = fuel' + 1 := ⟨fuel - 1, by omega⟩
    rw [piecesFrom_of_lt missing] at fragments
    simp [own] at fragments
  | cons fed rest ih =>
    have inTime : format.expired (some (holding tag message startedAt offset)) fed.now = false :=
      decide_eq_false (not_lt.mpr (timely fed List.mem_cons_self))
    have restTimely := fun fed listed => timely fed (List.mem_cons_of_mem _ listed)
    cases mine : fed.own with
    | false =>
      obtain ⟨after, results, later⟩ := feedAll_rejected mine inTime rejected
      have counted : (own (fed :: rest)).length = (own rest).length := by simp [own, mine]
      have others : (own rest).map (·.fragment) =
          (piecesFrom size tag message fuel offset).map encode := by
        rw [← fragments]
        simp [own, mine]
      have held := ih missing enough reads others restTimely later
      exact ⟨after.trans held.1, by rw [results, counted]; exact held.2⟩
    | true =>
      obtain ⟨-, fuel, rfl⟩ := own_cons mine enough fragments
      obtain ⟨head, tail⟩ := own_tail mine missing fragments
      rw [piecesFrom_of_lt missing] at reads
      have added : format.add (some (holding tag message startedAt offset)) fed.fragment fed.now =
          if offset + size < message.length then
            (.ok none, some (holding tag message startedAt (offset + size)))
          else (.ok (some (format.deliver tag message)), none) := by
        rw [head, add_next inTime (reads _ List.mem_cons_self)]
        exact extend_holding missing
      refine feedAll_cons_own mine (by omega) tail added ?_ rejected
      intro more fed later
      exact ih more (by omega) (fun piece listed => reads piece (List.mem_cons_of_mem _ listed))
        tail restTimely later

/-- **A message among rejected fragments.** The pieces of a message, fed in order and in time among
fragments that are rejected, give nothing but the message, at the last piece. -/
theorem feedAll_pieces {feed : List Fed} (positive : 0 < size) (nonempty : message ≠ [])
    (reads : ∀ piece ∈ pieces size tag message, format.parse (encode piece) = .ok piece)
    (fragments : (own feed).map (·.fragment) = (pieces size tag message).map encode)
    (timely : ∀ first ∈ (own feed).head?, ∀ fed ∈ feed, fed.now - first.now ≤ format.timeout)
    (rejected : OthersRejected feed (format.feedAll none feed).1) :
    (format.feedAll none feed).2 = none ∧
      ownResults feed (format.feedAll none feed).1 =
        delivered (own feed).length (format.deliver tag message) := by
  have missing : 0 < message.length := List.length_pos_iff.mpr nonempty
  induction feed with
  | nil =>
    obtain ⟨fuel, length⟩ : ∃ fuel, message.length = fuel + 1 := ⟨message.length - 1, by omega⟩
    rw [pieces, length, piecesFrom_of_lt missing] at fragments
    simp [own] at fragments
  | cons fed rest ih =>
    cases mine : fed.own with
    | false =>
      obtain ⟨after, results, later⟩ := feedAll_rejected mine rfl rejected
      have skipped : own (fed :: rest) = own rest := by simp [own, mine]
      rw [skipped] at fragments timely
      have held := ih fragments
        (fun first leads fed listed => timely first leads fed (List.mem_cons_of_mem _ listed))
        later
      rw [after, results, skipped]
      exact held
    | true =>
      have leads : (own (fed :: rest)).head? = some fed := by simp [own, mine]
      have inTime := timely fed leads
      unfold pieces at fragments reads
      obtain ⟨-, fuel, length⟩ := own_cons mine (by omega) fragments
      rw [length] at fragments reads
      obtain ⟨head, tail⟩ := own_tail mine missing fragments
      rw [piecesFrom_of_lt missing] at reads
      have added : format.add none fed.fragment fed.now =
          if 0 + size < message.length then
            (.ok none, some (holding tag message fed.now (0 + size)))
          else (.ok (some (format.deliver tag message)), none) := by
        rw [head, add_first (reads _ List.mem_cons_self) rfl]
        have begun : format.extend (holding tag message fed.now 0)
            { tag := tag
              offset := 0
              total := message.length
              chunk := message.extract 0 (min message.length (0 + size)) } = _ :=
          extend_holding missing
        exact begun
      refine feedAll_cons_own mine (by omega) tail added ?_ rejected
      intro more fed' later
      exact feedAll_holding positive more (by omega)
        (fun piece listed => reads piece (List.mem_cons_of_mem _ listed)) tail
        (fun other listed => inTime other (List.mem_cons_of_mem _ listed)) later

/-! ### Piece by piece -/

section PieceAt

omit [DecidableEq τ]

def pieceAt (size : ℕ) (tag : τ) (message : List UInt8) (index : ℕ) : Piece τ where
  tag := tag
  offset := index * size
  total := message.length
  chunk := message.extract (index * size) (min message.length (index * size + size))

theorem getElem?_piecesFrom {fuel offset : ℕ} (positive : 0 < size)
    (enough : message.length ≤ offset + fuel) (index : ℕ) :
    (piecesFrom size tag message fuel offset)[index]? =
      if offset + index * size < message.length then
        some
          { tag := tag
            offset := offset + index * size
            total := message.length
            chunk := message.extract (offset + index * size)
              (min message.length (offset + index * size + size)) }
      else none := by
  induction fuel generalizing offset index with
  | zero =>
    rw [piecesFrom_of_le (by omega), if_neg (by omega)]
    rfl
  | succ fuel ih =>
    by_cases inside : offset < message.length
    · rw [piecesFrom_of_lt inside]
      cases index with
      | zero =>
        rw [Nat.zero_mul, Nat.add_zero, if_pos inside]
        rfl
      | succ index =>
        have shifted : offset + (index + 1) * size = offset + size + index * size := by
          rw [Nat.succ_mul]
          omega
        rw [List.getElem?_cons_succ, ih (by omega), shifted]
    · rw [piecesFrom_of_le (by omega), if_neg (by omega)]
      rfl

theorem getElem?_pieces (positive : 0 < size) (index : ℕ) :
    (pieces size tag message)[index]? =
      if index * size < message.length then some (pieceAt size tag message index) else none := by
  rw [pieces, getElem?_piecesFrom positive (by omega)]
  simp only [Nat.zero_add]
  rfl

theorem lt_length_pieces (positive : 0 < size) (index : ℕ) :
    index < (pieces size tag message).length ↔ index * size < message.length := by
  rw [← not_iff_not, not_lt, not_lt, ← List.getElem?_eq_none_iff, getElem?_pieces positive]
  by_cases inside : index * size < message.length
  · simp [inside]
  · simpa [inside] using not_lt.mp inside

end PieceAt

theorem add_pieceAt {index : ℕ} {fragment : List UInt8} {now : ℤ}
    (timely : format.expired (some (holding tag message startedAt (index * size))) now = false)
    (inside : index * size < message.length)
    (reads : format.parse fragment = .ok (pieceAt size tag message index)) :
    format.add (some (holding tag message startedAt (index * size))) fragment now =
      if (index + 1) * size < message.length then
        (.ok none, some (holding tag message startedAt ((index + 1) * size)))
      else (.ok (some (format.deliver tag message)), none) := by
  rw [add_next timely reads, Nat.succ_mul]
  exact extend_holding inside

theorem add_pieceAt_zero {fragment : List UInt8} {now : ℤ} (nonempty : 0 < message.length)
    (reads : format.parse fragment = .ok (pieceAt size tag message 0)) :
    format.add none fragment now =
      if size < message.length then (.ok none, some (holding tag message now size))
      else (.ok (some (format.deliver tag message)), none) := by
  have first : format.extend (holding tag message now 0)
      { tag := tag
        offset := 0
        total := message.length
        chunk := message.extract 0 (min message.length (0 + size)) } = _ := extend_holding nonempty
  have begun : pieceAt size tag message 0 =
      { tag := tag
        offset := 0
        total := message.length
        chunk := message.extract 0 (min message.length (0 + size)) } := by
    rw [pieceAt, Nat.zero_mul]
  rw [begun] at reads
  rw [add_first reads rfl]
  rw [Nat.zero_add] at first ⊢
  exact first

theorem add_pieceAt_foreign {other : τ} {held : List UInt8} {offset : ℕ} {fragment : List UInt8}
    {now : ℤ} (begun : 0 < offset)
    (reads : format.parse fragment = .ok (pieceAt size tag message 0)) :
    ∃ e, (format.add (some (holding other held startedAt offset)) fragment now).1 = .error e := by
  cases timely : format.expired (some (holding other held startedAt offset)) now with
  | true => exact ⟨_, by rw [add_expired timely]⟩
  | false =>
    have gap : (pieceAt size tag message 0).offset ≠ (holding other held startedAt offset).next := by
      show 0 * size ≠ offset
      omega
    exact ⟨format.mismatch, by rw [add_next timely reads, extend, if_pos (Or.inr (Or.inr gap))]⟩

def Held (size : ℕ) (tag : τ) (message : List UInt8) (index : ℕ)
    (assembly : Option (Assembly τ)) : Prop :=
  if index = 0 then assembly = none
  else ∃ startedAt, assembly = some (holding tag message startedAt (index * size))

omit [DecidableEq τ] in
theorem held_succ (startedAt : ℤ) (index : ℕ) : Held size tag message (index + 1)
    (some (holding tag message startedAt ((index + 1) * size))) := by
  rw [Held, if_neg (Nat.succ_ne_zero index)]
  exact ⟨startedAt, rfl⟩

/-- **Piece by piece.** The next piece of a message continues it, and the last one delivers it. -/
theorem add_held {index : ℕ} {assembly : Option (Assembly τ)} {fragment : List UInt8} {now : ℤ}
    (held : Held size tag message index assembly) (timely : format.expired assembly now = false)
    (inside : index * size < message.length)
    (reads : format.parse fragment = .ok (pieceAt size tag message index)) :
    if (index + 1) * size < message.length then
      ∃ after, format.add assembly fragment now = (.ok none, after) ∧
        Held size tag message (index + 1) after
    else format.add assembly fragment now = (.ok (some (format.deliver tag message)), none) := by
  unfold Held at held
  by_cases first : index = 0
  · subst first
    rw [if_pos rfl] at held
    subst held
    rw [Nat.zero_mul] at inside
    have added : format.add none fragment now = _ := add_pieceAt_zero inside reads
    have size_eq : (0 + 1) * size = size := by omega
    rw [size_eq]
    by_cases more : size < message.length
    · rw [if_pos more] at added ⊢
      refine ⟨_, added, ?_⟩
      have begun : Held size tag message (0 + 1)
          (some (holding tag message now ((0 + 1) * size))) := held_succ now 0
      rwa [size_eq] at begun
    · rw [if_neg more] at added ⊢
      exact added
  · rw [if_neg first] at held
    obtain ⟨startedAt, rfl⟩ := held
    have added := add_pieceAt timely inside reads
    by_cases more : (index + 1) * size < message.length
    · rw [if_pos more] at added ⊢
      exact ⟨_, added, held_succ startedAt index⟩
    · rw [if_neg more] at added ⊢
      exact added

/-- **Begun in the middle of another message, a message is rejected.** -/
theorem add_clash {other : τ} {message' : List UInt8} {index : ℕ} {assembly : Option (Assembly τ)}
    {fragment : List UInt8} {now : ℤ} (positive : 0 < size) (begun : 0 < index)
    (held : Held size other message' index assembly)
    (reads : format.parse fragment = .ok (pieceAt size tag message 0)) :
    ∃ e, (format.add assembly fragment now).1 = .error e := by
  rw [Held, if_neg begun.ne'] at held
  obtain ⟨startedAt, rfl⟩ := held
  exact add_pieceAt_foreign (Nat.mul_pos begun positive) reads

end FragmentFormat

end Atterm.Foundation
