import StreamBroker.Proofs.Leases

/-!
# Streams in memory as bounded queues

A stream in memory keeps a prefix of all that it was offered, and gives it back in order.
Main statements:

* **uses** — what a stream in memory can be asked for, in any order (`Memory.Use`), and what
  becomes of it (`Memory.serveAll`), which is how every stream answers (`serveAll_serves`);
* **writing** — the limit cuts everything offered as if it were one write (`cut_append_cut`),
  so it does not matter where one write ends and the next one starts (`write_append`,
  `serveAll_writes`);
* **reading** — the next bytes come, as many as there are, and it does not matter either how
  they are asked for (`read_eq`, `read_add`, `serveAll_reads`);
* **closing** — from then on nothing but a release changes the stream (`closed_serveAll`).

`memory_queues` states them for every way to make a stream in memory.
-/

namespace StreamBroker

/-- The number of bytes that a call says it accepted. -/
def Call.count : Call → Nat
  | .write _ n => n
  | _ => 0

def bytesCounted : List Call → Nat
  | [] => 0
  | c :: rest => c.count + bytesCounted rest

theorem bytesAccepted_append (calls more : List Call) :
    bytesAccepted (calls ++ more) = bytesAccepted calls ++ bytesAccepted more :=
  List.flatMap_append

theorem bytesCounted_append (calls more : List Call) :
    bytesCounted (calls ++ more) = bytesCounted calls + bytesCounted more := by
  induction calls with
  | nil => exact (Nat.zero_add _).symm
  | cons c rest ih =>
    rw [List.cons_append, bytesCounted, bytesCounted, ih, Nat.add_assoc]

namespace Stream.Memory

/-- What a stream in memory can be asked for. -/
inductive Use
  | write (data : Bytes)
  | read (size : Nat)
  | atEnd
  | close
  | release
deriving DecidableEq

/-- The bytes that a use offers. -/
def Use.offered : Use → Bytes
  | .write data => data
  | _ => []

def bytesOffered (uses : List Use) : Bytes := uses.flatMap Use.offered

/-- The ways to make a stream in memory. -/
inductive Made : Memory → Prop
  | empty : Made empty
  | limited (limit : Nat) : Made (limited limit)
  | ofBytes (data : Bytes) : Made (ofBytes data)

def serve (m : Memory) : Use → Call × Memory
  | .write data => (.write data (m.write data).1, (m.write data).2)
  | .read size => (.read size (m.read size).1, (m.read size).2)
  | .atEnd => (.atEnd m.atEnd, m)
  | .close => (.close, m.close)
  | .release => (.release, m.release)

/-- Serves some uses, one after the other. -/
def serveAll (m : Memory) : List Use → List Call × Memory
  | [] => ([], m)
  | use :: rest =>
    let first := m.serve use
    let others := first.2.serveAll rest
    (first.1 :: others.1, others.2)

/-- Serving uses is answering the calls of a stream. -/
theorem serveAll_serves (m : Memory) (uses : List Use) :
    Serves (.memory m) (m.serveAll uses).1 (.memory (m.serveAll uses).2) := by
  induction uses generalizing m with
  | nil => exact .nil _
  | cons use rest ih =>
    have answers : Answers (.memory m) .empty (m.serve use).1 (.memory (m.serve use).2) .empty := by
      cases use <;> constructor
    exact .cons answers (ih _)

/-! ## Writing -/

/-- What a limit leaves of some bytes. -/
def cut : Option Nat → Bytes → Bytes
  | none, bytes => bytes
  | some limit, bytes => bytes.take limit

theorem cut_append (limit : Option Nat) (old new : Bytes) :
    cut limit (old ++ new) = cut limit old ++ cut (limit.map (· - old.length)) new := by
  cases limit with
  | none => rfl
  | some limit => exact List.take_append

theorem cut_append_cut (limit : Option Nat) (old new : Bytes) :
    cut limit (cut limit old ++ new) = cut limit (old ++ new) := by
  cases limit with
  | none => rfl
  | some limit =>
    show (old.take limit ++ new).take limit = (old ++ new).take limit
    rw [List.take_append, List.take_append, List.take_take, Nat.min_self, List.length_take]
    congr 2
    omega

/-- How much more there may be, where there is a limit. -/
def spare (m : Memory) : Option Nat := m.limit.map (· - m.contents.length)

theorem write_closed {m : Memory} (closed : m.closed = true) (data : Bytes) :
    m.write data = (0, m) := if_pos closed

theorem take_room (m : Memory) (data : Bytes) :
    data.take (m.room data.length) = cut m.spare data := by
  unfold room spare
  cases m.limit with
  | none => exact List.take_length
  | some limit => exact List.take_eq_take_min.symm

/-- An open stream appends what the limit leaves of the data. -/
theorem write_open {m : Memory} (isOpen : m.closed = false) (data : Bytes) :
    let kept := cut m.spare data
    m.write data = (kept.length, { m with contents := m.contents ++ kept }) := by
  intro kept
  have size : m.room data.length = kept.length := by
    rw [← List.length_take_of_le (m.room_le data.length), take_room]
  calc m.write data
      = (m.room data.length,
          { m with contents := m.contents ++ data.take (m.room data.length) }) :=
        if_neg (Bool.eq_false_iff.mp isOpen)
    _ = (kept.length, { m with contents := m.contents ++ kept }) := by rw [take_room, size]

/-- What a write leaves to spare is what its data leaves, kept or not. -/
theorem cut_spare (m : Memory) (data more : Bytes) :
    cut { m with contents := m.contents ++ cut m.spare data }.spare more =
      cut (m.spare.map (· - data.length)) more := by
  unfold spare
  cases m.limit with
  | none => rfl
  | some limit =>
    show more.take (limit - (m.contents ++ data.take (limit - m.contents.length)).length) =
      more.take (limit - m.contents.length - data.length)
    rw [List.length_append, List.length_take]
    congr 1
    omega

/-- One write or two make no difference. -/
theorem write_append (m : Memory) (data more : Bytes) :
    let first := m.write data
    let second := first.2.write more
    m.write (data ++ more) = (first.1 + second.1, second.2) := by
  show m.write (data ++ more) =
    ((m.write data).1 + ((m.write data).2.write more).1, ((m.write data).2.write more).2)
  cases shut : m.closed with
  | true => simp only [write_closed shut]
  | false =>
    -- the second write finds as much room as the first one leaves
    let kept := cut m.spare data
    let m₁ : Memory := { m with contents := m.contents ++ kept }
    have first : m.write data = (kept.length, m₁) := write_open shut data
    have second : m₁.write more = _ := write_open (m := m₁) shut more
    rw [first, second, write_open shut, cut_append, ← cut_spare, List.length_append,
      ← List.append_assoc]

theorem write_nil (m : Memory) : m.write [] = (0, m) := by
  cases shut : m.closed with
  | true => exact write_closed shut []
  | false =>
    have nothing : cut m.spare [] = [] := by
      cases m.spare with
      | none => rfl
      | some limit => exact List.take_nil
    rw [write_open shut, nothing, List.append_nil]
    rfl

theorem serveAll_writes (m : Memory) (chunks : List Bytes) :
    let o := m.serveAll (chunks.map .write)
    m.write chunks.flatten = (bytesCounted o.1, o.2) := by
  induction chunks generalizing m with
  | nil => exact write_nil m
  | cons chunk rest ih =>
    intro o
    rw [List.flatten_cons, write_append, ih]
    rfl

/-- The contents have not grown over the limit. -/
def Fits (m : Memory) : Prop := cut m.limit m.contents = m.contents

theorem Fits.length_le {m : Memory} (fits : m.Fits) {limit : Nat} (limited : m.limit = some limit) :
    m.contents.length ≤ limit := by
  unfold Fits at fits
  rw [limited] at fits
  have length := congrArg List.length fits
  rw [cut, List.length_take] at length
  omega

/-- An open stream keeps of what it has and what it is offered as much as the limit allows. -/
theorem Fits.write_contents {m : Memory} (fits : m.Fits) (isOpen : m.closed = false)
    (data : Bytes) : (m.write data).2.contents = cut m.limit (m.contents ++ data) := by
  rw [write_open isOpen, cut_append, fits]
  rfl

/-! ## Reading -/

theorem read_open {m : Memory} (isOpen : m.closed = false) (size : Nat) :
    let got := m.unread.take size
    m.read size = (got, { m with cursor := m.cursor + got.length }) :=
  if_neg (Bool.eq_false_iff.mp isOpen)

theorem read_closed {m : Memory} (closed : m.closed = true) (size : Nat) :
    m.read size = ([], m) := if_pos closed

theorem unread_read {m : Memory} (isOpen : m.closed = false) (size : Nat) :
    (m.read size).2.unread = m.unread.drop size := by
  rw [read_open isOpen]
  show m.contents.drop (m.cursor + (m.unread.take size).length) = m.unread.drop size
  rw [← List.drop_drop, List.length_take]
  show m.unread.drop (min size m.unread.length) = m.unread.drop size
  exact List.drop_eq_drop_min.symm

theorem read_zero (m : Memory) : m.read 0 = ([], m) := by
  cases shut : m.closed with
  | true => exact read_closed shut 0
  | false => exact read_open shut 0

/-- One read or two make no difference. -/
theorem read_add (m : Memory) (size more : Nat) :
    let first := m.read size
    let second := first.2.read more
    m.read (size + more) = (first.1 ++ second.1, second.2) := by
  show m.read (size + more) =
    ((m.read size).1 ++ ((m.read size).2.read more).1, ((m.read size).2.read more).2)
  cases shut : m.closed with
  | true => simp only [read_closed shut, List.append_nil]
  | false =>
    let got := m.unread.take size
    let m₁ : Memory := { m with cursor := m.cursor + got.length }
    have first : m.read size = (got, m₁) := read_open shut size
    have second : m₁.read more = _ := read_open (m := m₁) shut more
    have left : m₁.unread = m.unread.drop size := by
      rw [← unread_read shut, first]
    rw [first, second, read_open shut, List.take_add, ← left, List.length_append, Nat.add_assoc]

theorem serveAll_reads (m : Memory) (sizes : List Nat) :
    let o := m.serveAll (sizes.map .read)
    m.read (sizes.foldr (· + ·) 0) = (bytesRead o.1, o.2) := by
  induction sizes generalizing m with
  | nil => exact read_zero m
  | cons size rest ih =>
    intro o
    rw [List.foldr_cons, read_add, ih]
    rfl

/-- A read gives the next bytes, as many of them as there are. -/
theorem read_next {m : Memory} (isOpen : m.closed = false) (size : Nat) :
    let n := min size m.remaining
    m.read size = (m.unread.take n, { m with cursor := m.cursor + n }) := by
  intro n
  have got : m.unread.take size = m.unread.take n := by
    show _ = m.unread.take (min size m.remaining)
    rw [← length_unread, ← List.take_eq_take_min]
  have length : (m.unread.take size).length = n := by
    rw [List.length_take, length_unread]
  rw [read_open isOpen, length, got]

/-! ## Closing -/

/-- A closed stream accepts nothing and gives nothing, and only a release changes it. -/
theorem closed_serve {m : Memory} (closed : m.closed = true) (use : Use) :
    (m.serve use).1.count = 0 ∧ (m.serve use).1.got = [] ∧
      (m.serve use).2 = if use = .release then m.release else m := by
  cases use with
  | write data =>
    rw [serve, write_closed closed]
    exact ⟨rfl, rfl, rfl⟩
  | read size =>
    rw [serve, read_closed closed]
    exact ⟨rfl, rfl, rfl⟩
  | atEnd => exact ⟨rfl, rfl, rfl⟩
  | close =>
    cases m
    cases closed
    exact ⟨rfl, rfl, rfl⟩
  | release => exact ⟨rfl, rfl, rfl⟩

theorem closed_serveAll {m : Memory} (closed : m.closed = true) (uses : List Use) :
    let o := m.serveAll uses
    (∀ c ∈ o.1, c.count = 0 ∧ c.got = []) ∧
      o.2 = if .release ∈ uses then m.release else m := by
  induction uses generalizing m with
  | nil => exact ⟨nofun, rfl⟩
  | cons use rest ih =>
    obtain ⟨count, got, next⟩ := closed_serve closed use
    have still : (m.serve use).2.closed = true := by
      rw [next]
      split <;> exact closed
    obtain ⟨others, last⟩ := ih still
    constructor
    · exact List.forall_mem_cons.mpr ⟨⟨count, got⟩, others⟩
    · show ((m.serve use).2.serveAll rest).2 = _
      rw [last, next]
      by_cases released : use = .release
      · subst released
        rw [if_pos rfl, if_pos List.mem_cons_self]
        split <;> rfl
      · rw [if_neg released]
        simp only [List.mem_cons, Ne.symm released, false_or]

/-! ## The queue -/

/-- An open stream that keeps to its contents and to its limit. -/
structure Usable (m : Memory) : Prop where
  isOpen : m.closed = false
  within : m.Within
  fits : m.Fits

theorem Made.usable {m : Memory} (made : m.Made) : m.Usable := by
  cases made with
  | empty => exact ⟨rfl, Nat.le_refl _, rfl⟩
  | limited limit => exact ⟨rfl, Nat.le_refl _, List.take_nil⟩
  | ofBytes data => exact ⟨rfl, Nat.zero_le _, rfl⟩

/-- What becomes of an open stream as it is offered some bytes and answers some calls. -/
structure Keeps (m : Memory) (offered : Bytes) (calls : List Call) (m' : Memory) : Prop where
  usable : m'.Usable
  limit : m'.limit = m.limit
  contents : m'.contents = cut m.limit (m.contents ++ offered)
  accepted : m'.contents = m.contents ++ bytesAccepted calls
  counted : m'.contents.length = m.contents.length + bytesCounted calls

theorem Keeps.trans {m m₁ m₂ : Memory} {x y : Bytes} {cs ds : List Call}
    (first : m.Keeps x cs m₁) (second : m₁.Keeps y ds m₂) : m.Keeps (x ++ y) (cs ++ ds) m₂ where
  usable := second.usable
  limit := second.limit.trans first.limit
  contents := by
    rw [second.contents, first.limit, first.contents, cut_append_cut, List.append_assoc]
  accepted := by
    rw [second.accepted, first.accepted, List.append_assoc, ← bytesAccepted_append]
  counted := by rw [second.counted, first.counted, Nat.add_assoc, ← bytesCounted_append]

/-- A use that offers nothing and leaves the contents alone. -/
theorem Usable.keeps_of_eq {m m' : Memory} {c : Call} (usable : m'.Usable)
    (limit : m'.limit = m.limit) (contents : m'.contents = m.contents) (fits : m.Fits)
    (accepted : c.accepted = []) (count : c.count = 0) : m.Keeps [] [c] m' where
  usable := usable
  limit := limit
  contents := by rw [contents, List.append_nil, fits]
  accepted := by
    rw [contents, bytesAccepted, List.flatMap_singleton, accepted, List.append_nil]
  counted := by
    rw [contents, bytesCounted, count]
    rfl

theorem Usable.serve {m : Memory} (usable : m.Usable) {use : Use} (kept : use ≠ .close) :
    m.Keeps use.offered [(m.serve use).1] (m.serve use).2 := by
  cases use with
  | write data =>
    have written := write_open usable.isOpen data
    have contents : (m.write data).2.contents = cut m.limit (m.contents ++ data) :=
      usable.fits.write_contents usable.isOpen data
    have limit : (m.write data).2.limit = m.limit := by rw [written]
    refine ⟨⟨?_, (usable.within.write data).1, ?_⟩, limit, contents, ?_, ?_⟩
    · show (m.write data).2.closed = false
      rw [written]
      exact usable.isOpen
    · show cut (m.write data).2.limit (m.write data).2.contents = (m.write data).2.contents
      have twice := cut_append_cut m.limit (m.contents ++ data) []
      rw [List.append_nil, List.append_nil] at twice
      rw [limit, contents, twice]
    · show (m.write data).2.contents = m.contents ++ (data.take (m.write data).1 ++ [])
      rw [List.append_nil, Memory.write_contents]
    · show (m.write data).2.contents.length = m.contents.length + ((m.write data).1 + 0)
      rw [written]
      exact List.length_append
  | read size =>
    have next := read_next usable.isOpen size
    have moved : (m.read size).2.Usable := by
      refine ⟨?_, (usable.within.read size).1, ?_⟩
      · rw [next]
        exact usable.isOpen
      · rw [next]
        exact usable.fits
    exact moved.keeps_of_eq (by rw [next]) (by rw [next]) usable.fits rfl rfl
  | atEnd => exact usable.keeps_of_eq rfl rfl usable.fits rfl rfl
  | close => exact absurd rfl kept
  | release =>
    have skipped : m.release.Usable := ⟨usable.isOpen, Nat.le_refl _, usable.fits⟩
    exact skipped.keeps_of_eq rfl rfl usable.fits rfl rfl

theorem Usable.serveAll {m : Memory} (usable : m.Usable) {uses : List Use}
    (unclosed : .close ∉ uses) :
    m.Keeps (bytesOffered uses) (m.serveAll uses).1 (m.serveAll uses).2 := by
  induction uses generalizing m with
  | nil =>
    exact ⟨usable, rfl, (congrArg _ (List.append_nil _)).trans usable.fits |>.symm,
      (List.append_nil _).symm, rfl⟩
  | cons use rest ih =>
    obtain ⟨first, others⟩ := not_or.mp fun here => unclosed (List.mem_cons.mpr here)
    have step := usable.serve (Ne.symm first)
    exact step.trans (ih step.usable others)

/-- A stream in memory, however it was made and used until it is closed, holds a prefix of
all that it was offered after its initial bytes, which is as long as its limit allows. Its
cursor stays within the contents, so every slice of a write or a read is in range: a write
accepts no more than its data, and a read gives the next bytes at the cursor, as many as were
asked for or are left. Into how many writes some bytes are cut, or reads a size, is of no
consequence. A release skips what is left. Once the stream is closed, whatever is asked of it
accepts nothing and gives nothing, and nothing changes any more but the cursor, by a release. -/
theorem memory_queues {m₀ : Memory} (made : m₀.Made) {uses : List Use} (unclosed : .close ∉ uses) :
    let calls := (m₀.serveAll uses).1
    let m := (m₀.serveAll uses).2
    Serves (.memory m₀) calls (.memory m) ∧
    (m.contents = cut m₀.limit (m₀.contents ++ bytesOffered uses) ∧
      m.contents = m₀.contents ++ bytesAccepted calls ∧
      m.contents.length = m₀.contents.length + bytesCounted calls) ∧
    (m.cursor ≤ m.contents.length ∧
      (∀ limit, m₀.limit = some limit → m.contents.length ≤ limit) ∧
      m.cursor + m.remaining = m.contents.length ∧
      (m.atEnd = true ↔ m.remaining = 0)) ∧
    (∀ data, (m.write data).1 ≤ data.length) ∧
    (∀ chunks : List Bytes,
      let o := m.serveAll (chunks.map .write)
      m.write chunks.flatten = (bytesCounted o.1, o.2)) ∧
    (∀ size,
      let n := min size m.remaining
      m.read size = ((m.contents.drop m.cursor).take n, { m with cursor := m.cursor + n }) ∧
        m.cursor + n ≤ m.contents.length ∧ (m.read size).1.length = n) ∧
    (∀ sizes : List Nat,
      let o := m.serveAll (sizes.map .read)
      m.read (sizes.foldr (· + ·) 0) = (bytesRead o.1, o.2)) ∧
    m.release = { m with cursor := m.contents.length } ∧
    ∀ later,
      let o := m.close.serveAll later
      (∀ c ∈ o.1, c.count = 0 ∧ c.got = []) ∧
        o.2 = { m with
          cursor := if .release ∈ later then m.contents.length else m.cursor
          closed := true } ∧
        (o.2.atEnd = true ↔ o.2.remaining = 0) := by
  intro calls m
  have keeps : m₀.Keeps (bytesOffered uses) calls m := made.usable.serveAll unclosed
  have within : m.cursor ≤ m.contents.length := keeps.usable.within
  have left : m.remaining = m.contents.length - m.cursor := rfl
  refine ⟨serveAll_serves m₀ uses, ⟨keeps.contents, keeps.accepted, keeps.counted⟩,
    ⟨within, fun limit limited => ?_, by omega, atEnd_iff_remaining⟩, m.write_le,
    m.serveAll_writes, fun size => ?_, m.serveAll_reads, rfl, fun later => ?_⟩
  · exact keeps.usable.fits.length_le (keeps.limit.trans limited)
  · intro n
    have next : m.read size = (m.unread.take n, _) := read_next keeps.usable.isOpen size
    have ahead : n ≤ m.remaining := Nat.min_le_right ..
    refine ⟨next, by omega, ?_⟩
    rw [next]
    exact List.length_take_of_le (Nat.le_trans ahead (Nat.le_of_eq (length_unread m).symm))
  · obtain ⟨idle, last⟩ := closed_serveAll (m := m.close) rfl later
    refine ⟨idle, last.trans ?_, atEnd_iff_remaining⟩
    split <;> rfl

/-- Uses of a stream that runs full: a short write, a read, a release and a write in vain. -/
def cramping : List Use :=
  [.write [1, 2, 3], .read 2, .atEnd, .write [4, 5], .release, .write [6]]

theorem memory_queues_cramping :
    let m := ((limited 4).serveAll cramping).2
    (limited 4).Made ∧ .close ∉ cramping ∧ m.contents = [1, 2, 3, 4] ∧ m.contents.length ≤ 4 ∧
      m.cursor + m.remaining = 4 ∧
      (m.close.serveAll [.write [7], .read 9]).2 = { m with closed := true } := by
  intro m
  have made : (limited 4).Made := .limited 4
  have unclosed : .close ∉ cramping := by decide
  obtain ⟨-, ⟨contents, -, -⟩, ⟨-, fits, count, -⟩, -, -, -, -, -, after⟩ :=
    memory_queues made unclosed
  exact ⟨made, unclosed, contents, fits 4 rfl, count, (after [.write [7], .read 9]).2.1⟩

end Stream.Memory

end StreamBroker
