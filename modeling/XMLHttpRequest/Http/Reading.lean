import Mathlib.Data.List.Infix
import XMLHttpRequest.Http.Message
import XMLHttpRequest.Library.Outcome

/-
  What the readers of a response return, and what they leave
  in it (httpresponse.cpp).

  Key definitions include:
    * `Network.Response.contentLength`
    * `Network.Response.text`
    * `Network.ReadEvent`
    * `Network.CountsLast`

  Key theorems include:
    * `Network.Response.keeps_readRun`
    * `Network.Response.reads_total_iff`
    * `Network.Response.text_iff`
-/

------------------------------------------------------------
-- Readers
------------------------------------------------------------

namespace Network

/- What an allocation throws. -/
inductive AllocationError
  | lengthError
  | badAlloc
  deriving DecidableEq, Repr

/-
  How long a string may be: `max_size()`, and the bytes that
  can be allocated for one.
-/
structure StringRoom where
  maxSize : Nat
  available : Nat

namespace StringRoom

/- A string has to get room for `n` characters. -/
def reserve
    (room : StringRoom)
    (n : Nat) : Outcome AllocationError Unit :=
  if n > room.maxSize then .throws .lengthError
  else if n > room.available then .throws .badAlloc
  else .returns ()

/- `text.append(chunk)` -/
def append
    (room : StringRoom)
    (text chunk : Bytes) : Outcome AllocationError Bytes :=
  (room.reserve (text.length + chunk.length)).map fun _ =>
    text ++ chunk

/- There is room for a string of the length. -/
def Fits (room : StringRoom) (n : Nat) : Prop :=
  n ≤ room.maxSize ∧ n ≤ room.available

end StringRoom

/- `find(text) != npos` -/
def occursIn (text value : Bytes) : Bool :=
  value.tails.any text.isPrefixOf

namespace Response

/- The sizes of all chunks, added up in a `size_t`. -/
def countChunks (rp : Response) : Nat :=
  rp.data_.foldl (fun n chunk => sizeT (n + chunk.length)) 0

/-
  `contentLength() const`, which fills the mutable member that
  also holds a declared length.
-/
def contentLength (rp : Response) : Int × Response :=
  let filled :=
    if rp.contentLength_ = 0 then
      { rp with contentLength_ := rp.countChunks }
    else rp
  (toInt64 filled.contentLength_, filled)

/- Some header value names a character set. -/
def hasCharset (rp : Response) : Bool :=
  rp.header_.entries.any fun field =>
    occursIn (ascii "charset=") field.2.value

/- `text() const` -/
def text
    (rp : Response)
    (room : StringRoom) :
    Outcome AllocationError Bytes × Response :=
  if rp.hasCharset then
    let (length, rp) := rp.contentLength
    ((room.reserve (sizeT length)).bind fun _ =>
      Outcome.foldl room.append [] rp.data_, rp)
  else (.returns [], rp)

end Response

end Network

------------------------------------------------------------
-- Counting
------------------------------------------------------------

namespace Network

/- How many bytes chunks are. -/
def totalBytes (chunks : List Bytes) : Nat :=
  (chunks.map List.length).sum

namespace Response

variable {rp : Response}

theorem countChunks_eq (rp : Response) :
    rp.countChunks = sizeT (totalBytes rp.data_) := by
  have hFold :
      ∀ (chunks : List Bytes) (n : Nat),
        chunks.foldl
            (fun n chunk => sizeT (n + chunk.length))
            (sizeT n) =
          sizeT (n + totalBytes chunks) := by
    intro chunks
    induction chunks with
    | nil => simp [totalBytes]
    | cons chunk chunks ih =>
        intro n
        have hNext :
            sizeT (sizeT n + chunk.length) =
              sizeT ((n + chunk.length : Nat) : Int) := by
          unfold sizeT
          omega
        rw [List.foldl_cons, hNext, ih]
        congr 1
        simp only [totalBytes, List.map_cons, List.sum_cons]
        omega
  have hZero := hFold rp.data_ 0
  simpa [countChunks, sizeT] using hZero

theorem contentLength_snd (rp : Response) :
    rp.contentLength.2 =
      { rp with
        contentLength_ :=
          if rp.contentLength_ = 0 then
            sizeT (totalBytes rp.data_)
          else rp.contentLength_ } := by
  unfold contentLength
  split
  · rw [countChunks_eq]
  · rfl

/- A count that is kept is returned, and else a new one. -/
theorem contentLength_eq (rp : Response) :
    rp.contentLength.1 =
      toInt64
        (if rp.contentLength_ = 0 then
          sizeT (totalBytes rp.data_)
        else rp.contentLength_ : Nat) := by
  have hKept :
      rp.contentLength.1 =
        toInt64 rp.contentLength.2.contentLength_ := by
    simp only [contentLength]
  rw [hKept, contentLength_snd]

theorem text_snd (rp : Response) (room : StringRoom) :
    (rp.text room).2 =
      if rp.hasCharset then rp.contentLength.2 else rp := by
  unfold text
  split <;> rfl

end Response

end Network

------------------------------------------------------------
-- Reads Between Chunks
------------------------------------------------------------

namespace Network

inductive ReadEvent
  | data (chunk : Bytes)
  | contentLength
  | text
  deriving DecidableEq, Repr

/- The read adds up the chunks, unless a count is kept. -/
def ReadEvent.counts (charset : Bool) : ReadEvent → Bool
  | .data _ => false
  | .contentLength => true
  | .text => charset

def ReadEvent.size : ReadEvent → Nat
  | .data chunk => chunk.length
  | _ => 0

/- The bytes that events bring. -/
def received (events : List ReadEvent) : Nat :=
  (events.map ReadEvent.size).sum

namespace Response

/- The response after a chunk or a read. -/
def readStep
    (room : StringRoom)
    (rp : Response) : ReadEvent → Response
  | .data chunk => rp.addData chunk
  | .contentLength => rp.contentLength.2
  | .text => (rp.text room).2

def readRun
    (room : StringRoom)
    (rp : Response)
    (events : List ReadEvent) : Response :=
  events.foldl (readStep room) rp

/- A response without data or a declared length. -/
def undeclared (header : Header) : Response :=
  { header_ := header }

end Response

/-
  At the end of the events a count is small enough for its
  type, and those made before are of as many bytes, or of
  none.
-/
def CountsLast
    (charset : Bool)
    (events : List ReadEvent) : Prop :=
  received events < 2 ^ 63 ∧
    ∀ earlier read,
      earlier ++ [read] <+: events →
        read.counts charset = true →
          0 < received earlier →
            received earlier = received events

/- What is kept of the counts made so far. -/
structure Keeps
    (charset : Bool)
    (events : List ReadEvent)
    (kept : Nat) : Prop where
  least :
    ∀ earlier read,
      earlier ++ [read] <+: events →
        read.counts charset = true →
          0 < received earlier →
            0 < kept ∧ kept ≤ received earlier
  counted :
    0 < kept →
      ∃ earlier read,
        earlier ++ [read] <+: events ∧
          read.counts charset = true ∧
            received earlier = kept

end Network

------------------------------------------------------------
-- The Count That Is Kept
------------------------------------------------------------

namespace Network

variable {events : List ReadEvent}

theorem received_append
    (events : List ReadEvent)
    (event : ReadEvent) :
    received (events ++ [event]) =
      received events + event.size := by
  simp [received]

theorem received_le
    {before : List ReadEvent}
    (hPrefix : before <+: events) :
    received before ≤ received events := by
  rcases hPrefix with ⟨after, rfl⟩
  simp [received]

/- What is kept was counted before. -/
theorem Keeps.le
    {charset : Bool}
    {kept : Nat}
    (hKeeps : Keeps charset events kept) :
    kept ≤ received events := by
  rcases Nat.eq_zero_or_pos kept with hZero | hSome
  · omega
  · rcases hKeeps.counted hSome with
      ⟨earlier, read, hPrefix, _, rfl⟩
    exact received_le
      ((List.prefix_append _ _).trans hPrefix)

namespace Response

variable {room : StringRoom}
variable {header : Header}

theorem readRun_append
    (rp : Response)
    (event : ReadEvent) :
    rp.readRun room (events ++ [event]) =
      (rp.readRun room events).readStep room event := by
  simp [readRun]

/- No read changes the fields or the data. -/
theorem readRun_keeps
    (room : StringRoom)
    (header : Header)
    (events : List ReadEvent) :
    ((undeclared header).readRun room events).header_ =
        header ∧
      totalBytes
          ((undeclared header).readRun room events).data_ =
        received events := by
  induction events using List.reverseRecOn with
  | nil => exact ⟨rfl, rfl⟩
  | append_singleton events event ih =>
      rw [readRun_append, received_append, ← ih.2]
      cases event with
      | data chunk =>
          refine ⟨ih.1, ?_⟩
          simp [readStep, addData, totalBytes,
            ReadEvent.size]
      | contentLength =>
          simp only [readStep, contentLength_snd]
          exact ⟨ih.1, rfl⟩
      | text =>
          simp only [readStep, text_snd, contentLength_snd]
          split <;> exact ⟨ih.1, rfl⟩

/- A counting read fills the member that is empty. -/
theorem readStep_contentLength_
    (rp : Response)
    (event : ReadEvent) :
    (rp.readStep room event).contentLength_ =
      if event.counts rp.hasCharset = true ∧
          rp.contentLength_ = 0 then
        sizeT (totalBytes rp.data_)
      else rp.contentLength_ := by
  cases event with
  | data chunk => rfl
  | contentLength =>
      simp only [readStep, contentLength_snd,
        ReadEvent.counts, true_and]
  | text =>
      simp only [readStep, text_snd, ReadEvent.counts]
      by_cases hCharset : rp.hasCharset = true
      · simp only [hCharset, if_true, contentLength_snd,
          true_and]
      · simp only [hCharset, false_and, if_false,
          Bool.false_eq_true]

/-
  The member holds the count of the first counting read that
  came behind some byte.
-/
theorem keeps_readRun
    (room : StringRoom)
    (header : Header)
    (hSmall : received events < 2 ^ 64) :
    Keeps (undeclared header).hasCharset events
      ((undeclared header).readRun room
        events).contentLength_ := by
  induction events using List.reverseRecOn with
  | nil =>
      refine ⟨?_, nofun⟩
      intro earlier read hPrefix
      have hLength := hPrefix.length_le
      simp at hLength
  | append_singleton events event ih =>
      rw [received_append] at hSmall
      rcases ih (by omega) with ⟨hLeast, hCounted⟩
      rcases readRun_keeps room header events with
        ⟨hHeader, hData⟩
      have hCharset :
          ((undeclared header).readRun room
              events).hasCharset =
            (undeclared header).hasCharset := by
        unfold hasCharset
        rw [hHeader]
        rfl
      rw [readRun_append, readStep_contentLength_, hData,
        hCharset, sizeT_ofNat (by omega)]
      generalize
        ((undeclared header).readRun room
          events).contentLength_ = kept at hLeast hCounted ⊢
      have hBound := Keeps.le ⟨hLeast, hCounted⟩
      constructor
      · intro earlier read hPrefix hCounts hBytes
        rcases List.prefix_concat_iff.mp hPrefix with
          hLast | hBefore
        · rcases List.append_inj' hLast rfl with
            ⟨rfl, hEvent⟩
          cases hEvent
          split <;> rename_i hCase
          · exact ⟨hBytes, le_rfl⟩
          · have hKept : kept ≠ 0 :=
              fun hZero => hCase ⟨hCounts, hZero⟩
            exact ⟨by omega, hBound⟩
        · rcases hLeast earlier read hBefore hCounts hBytes
            with ⟨hSome, hLe⟩
          rw [if_neg (by omega)]
          exact ⟨hSome, hLe⟩
      · intro hSome
        split at hSome <;> rename_i hCase
        · exact ⟨events, event, List.prefix_rfl, hCase.1,
            (if_pos hCase).symm⟩
        · rcases hCounted hSome with
            ⟨earlier, read, hPrefix, hCounts, hKept⟩
          refine ⟨earlier, read, ?_, hCounts, ?_⟩
          · exact hPrefix.trans (List.prefix_append _ _)
          · rw [if_neg hCase, hKept]

/- What a count after the events returns. -/
theorem readRun_contentLength_iff
    (room : StringRoom)
    (header : Header)
    (events : List ReadEvent) :
    ((undeclared header).readRun room
        events).contentLength.1 = received events ↔
      CountsLast (undeclared header).hasCharset events := by
  have hData :=
    (readRun_keeps room header events).2
  rw [contentLength_eq, hData, CountsLast]
  by_cases hSmall : received events < 2 ^ 63
  · have hKeeps :
        Keeps (undeclared header).hasCharset events _ :=
      keeps_readRun room header (by omega)
    generalize
      ((undeclared header).readRun room
        events).contentLength_ = kept at hKeeps ⊢
    have hBound := hKeeps.le
    have hReturned :
        toInt64
            (if kept = 0 then sizeT (received events)
              else kept : Nat) =
            received events ↔
          kept = 0 ∨ kept = received events := by
      rw [sizeT_ofNat (by omega)]
      split
      · rw [toInt64_ofNat hSmall]
        exact iff_of_true rfl (.inl ‹_›)
      · rw [toInt64_ofNat (by omega)]
        omega
    rw [hReturned]
    constructor
    · intro hKept
      refine ⟨hSmall, ?_⟩
      intro earlier read hPrefix hCounts hBytes
      rcases hKeeps.least earlier read hPrefix hCounts hBytes
        with ⟨hSome, hLe⟩
      have hTotal :=
        received_le
          ((List.prefix_append earlier [read]).trans hPrefix)
      omega
    · rintro ⟨-, hLast⟩
      rcases Nat.eq_zero_or_pos kept with hZero | hSome
      · exact .inl hZero
      · rcases hKeeps.counted hSome with
          ⟨earlier, read, hPrefix, hCounts, rfl⟩
        exact .inr
          (hLast earlier read hPrefix hCounts hSome)
  · refine iff_of_false ?_ fun hLast => hSmall hLast.1
    intro hReturned
    have hRange := hReturned ▸ toInt64_lt _
    omega

/-
  The counts of a run are of all bytes received before them
  exactly when each comes at the end of events that allow it.
-/
theorem reads_total_iff
    (room : StringRoom)
    (header : Header)
    (events : List ReadEvent) :
    (∀ before,
      before ++ [.contentLength] <+: events →
        ((undeclared header).readRun room
            before).contentLength.1 = received before) ↔
      ∀ before,
        before ++ [.contentLength] <+: events →
          CountsLast (undeclared header).hasCharset before :=
  forall₂_congr fun before _ =>
    readRun_contentLength_iff room header before

/- A byte that comes behind a count is not seen by the next. -/
theorem second_count_stale :
    ¬ ∀ before,
      before ++ [.contentLength] <+:
          [.data [1], .contentLength, .data [2],
            .contentLength] →
        ((undeclared OrderedMultimap.empty).readRun ⟨9, 9⟩
            before).contentLength.1 = received before := by
  intro hTotal
  have hSecond :=
    hTotal [.data [1], .contentLength, .data [2]]
      List.prefix_rfl
  exact absurd hSecond (by decide)

end Response

end Network

------------------------------------------------------------
-- Texts
------------------------------------------------------------

namespace Network

namespace StringRoom

variable {room : StringRoom}

theorem reserve_returns_iff (n : Nat) :
    room.reserve n = .returns () ↔ room.Fits n := by
  unfold reserve Fits
  split
  · exact iff_of_false nofun (by omega)
  · split
    · exact iff_of_false nofun (by omega)
    · exact iff_of_true rfl (by omega)

/- The chunks are appended if there is room for them all. -/
theorem foldl_append_iff
    {text : Bytes}
    (hText : room.Fits text.length)
    (chunks : List Bytes) :
    Outcome.foldl room.append text chunks =
        .returns (text ++ chunks.flatten) ↔
      room.Fits (text.length + totalBytes chunks) := by
  induction chunks generalizing text with
  | nil =>
      refine iff_of_true ?_ (by simpa [totalBytes] using hText)
      simp [Outcome.foldl]
  | cons chunk chunks ih =>
      have hTotal :
          text.length + totalBytes (chunk :: chunks) =
            (text ++ chunk).length + totalBytes chunks := by
        simp only [totalBytes, List.map_cons, List.sum_cons,
          List.length_append]
        omega
      have hFlat :
          text ++ (chunk :: chunks).flatten =
            (text ++ chunk) ++ chunks.flatten := by
        simp
      rw [hTotal, hFlat, Outcome.foldl]
      by_cases hNext : room.Fits (text.length + chunk.length)
      · have hAppend :
            room.append text chunk =
              .returns (text ++ chunk) := by
          rw [append, (reserve_returns_iff _).mpr hNext]
          rfl
        rw [hAppend, Outcome.bind_returns]
        exact ih (by simpa using hNext)
      · refine iff_of_false ?_ ?_
        · intro hAll
          rcases Outcome.bind_eq_returns_iff.mp hAll with
            ⟨longer, hAppend, -⟩
          rcases Outcome.bind_eq_returns_iff.mp hAppend with
            ⟨⟨⟩, hReserve, -⟩
          exact hNext ((reserve_returns_iff _).mp hReserve)
        · rw [List.length_append]
          rintro ⟨hMax, hAvailable⟩
          exact hNext ⟨by omega, by omega⟩

end StringRoom

namespace Response

/- What `text` reserves: the length that is kept, or a count. -/
def reserved (rp : Response) : Nat :=
  sizeT
    (if rp.contentLength_ = 0 then totalBytes rp.data_
    else rp.contentLength_ : Nat)

/- The same bytes, cut into other chunks. -/
def recut (rp : Response) (chunks : List Bytes) : Response :=
  { rp with data_ := chunks }

theorem totalBytes_eq (chunks : List Bytes) :
    totalBytes chunks = chunks.flatten.length :=
  List.length_flatten.symm

theorem text_of_charset
    {rp : Response}
    (hCharset : rp.hasCharset = true)
    (room : StringRoom) :
    (rp.text room).1 =
      (room.reserve rp.reserved).bind fun _ =>
        Outcome.foldl room.append [] rp.data_ := by
  have hReserved :
      sizeT rp.contentLength.1 = rp.reserved := by
    rw [contentLength_eq, sizeT_toInt64, reserved]
    split
    · unfold sizeT
      omega
    · rfl
  have hData : rp.contentLength.2.data_ = rp.data_ := by
    rw [contentLength_snd]
  unfold text
  rw [if_pos hCharset]
  simp only [hReserved, hData]

/- One way of cutting the bytes. -/
theorem text_returns_iff
    (rp : Response)
    (room : StringRoom) :
    (rp.text room).1 =
        .returns
          (if rp.hasCharset then rp.data_.flatten else []) ↔
      (rp.hasCharset = true →
        room.Fits rp.reserved ∧
          room.Fits rp.data_.flatten.length) := by
  by_cases hCharset : rp.hasCharset = true
  · have hEmpty : room.Fits ([] : Bytes).length :=
      ⟨Nat.zero_le _, Nat.zero_le _⟩
    have hAppends :=
      StringRoom.foldl_append_iff hEmpty rp.data_
    rw [List.nil_append, List.length_nil, Nat.zero_add,
      totalBytes_eq] at hAppends
    rw [text_of_charset hCharset, if_pos hCharset,
      Outcome.bind_eq_returns_iff]
    simp only [hAppends, hCharset, true_implies,
      ← StringRoom.reserve_returns_iff rp.reserved]
    exact ⟨fun ⟨⟨⟩, hReserve, hBytes⟩ => ⟨hReserve, hBytes⟩,
      fun ⟨hReserve, hBytes⟩ => ⟨(), hReserve, hBytes⟩⟩
  · refine iff_of_true ?_ fun hSome => absurd hSome hCharset
    unfold text
    rw [if_neg hCharset, if_neg hCharset]

/-
  Whatever length was declared, the text is the bytes in every
  cut, or empty without a character set, exactly when there is
  room for the length that is reserved and for the bytes.
-/
theorem text_iff
    (rp : Response)
    (room : StringRoom) :
    (∀ chunks,
      chunks.flatten = rp.data_.flatten →
        ((rp.recut chunks).text room).1 =
          .returns
            (if rp.hasCharset then rp.data_.flatten
              else [])) ↔
      (rp.hasCharset = true →
        room.Fits rp.reserved ∧
          room.Fits rp.data_.flatten.length) := by
  have hCut :
      ∀ chunks, chunks.flatten = rp.data_.flatten →
        (((rp.recut chunks).text room).1 =
            .returns
              (if rp.hasCharset then rp.data_.flatten
                else []) ↔
          (rp.hasCharset = true →
            room.Fits rp.reserved ∧
              room.Fits rp.data_.flatten.length)) := by
    intro chunks hSame
    have hReserved :
        (rp.recut chunks).reserved = rp.reserved := by
      simp only [reserved, recut, totalBytes_eq, hSame]
    have hCharset :
        (rp.recut chunks).hasCharset = rp.hasCharset := rfl
    have hBytes :
        (rp.recut chunks).data_.flatten =
          rp.data_.flatten := hSame
    have hIff := (rp.recut chunks).text_returns_iff room
    rwa [hReserved, hCharset, hBytes] at hIff
  constructor
  · intro hAll
    exact (hCut rp.data_ rfl).mp (hAll rp.data_ rfl)
  · intro hFits chunks hSame
    exact (hCut chunks hSame).mpr hFits

/- A response without a byte of data, of a declared length. -/
def declared (value : Bytes) : Response :=
  (undeclared
    (OrderedMultimap.empty.emplace (ascii "content-type")
      ⟨ascii "text/plain; charset=utf-8", false⟩)
    ).setContentLength (parseUint value)

/- Lengths that are too large, and one that is no number. -/
theorem text_declared_throws :
    ((declared (ascii "9223372036854775807")).text
        ⟨2 ^ 62 - 1, 2 ^ 62 - 1⟩).1 = .throws .lengthError ∧
      ((declared (ascii "x")).text
        ⟨2 ^ 62 - 1, 2 ^ 62 - 1⟩).1 =
          .throws .lengthError := by
  decide +kernel

end Response

end Network
