import Mathlib.Data.List.TakeWhile
import XMLHttpRequest.Base.Base64Text
import XMLHttpRequest.Request.Whole

/-
  The header fields that the calls of the user set, and the
  credentials among them.

  Key definitions include:
    * `Network.basicValue`
    * `Network.RequestEvent.fields`
    * `Network.readBasic`

  Key theorems include:
    * `Network.Impl.step_header`
    * `Network.Impl.run_header`
    * `Network.basic_credentials`
-/

------------------------------------------------------------
-- Fields Set
------------------------------------------------------------

namespace Network

/- What `open` sets the `Authorization` field to. -/
def basicValue (user password : Bytes) : HeaderValue :=
  ⟨ascii "Basic " ++
    encodeFromArray (user ++ [58] ++ password), false⟩

/- The fields that an event sets, one at most. -/
def RequestEvent.fields :
    RequestEvent → List (Bytes × HeaderValue)
  | .setRequestHeader name value => [(name, ⟨value, false⟩)]
  | .openAuth _ _ _ user password _ =>
      [(ascii "Authorization", basicValue user password)]
  | _ => []

namespace Impl

variable {d d' : Impl}

theorem openPlain_header
    (d : Impl)
    (setup : Setup) :
    (d.openPlain setup).header = d.header := by
  have hSetup : (d.setup setup).header = d.header := by
    generalize hStart : d.setup setup = started
    cases setUp_of_eq hStart <;> rfl
  unfold openPlain
  split
  · rfl
  · have hTimer :
        (d.setup setup).setupTimer.header =
          (d.setup setup).header := by
      unfold setupTimer
      split <;> rfl
    have hTold :
        (((d.setup setup).setupTimer).callStateChange
          .opened).header =
            (d.setup setup).setupTimer.header := by
      rcases ((d.setup setup).setupTimer).callStateChange_cases
        .opened with ⟨_, hSame⟩ | ⟨s, _, _, _, hFrame⟩
      · rw [hSame]
      · rw [hFrame]
    rw [hTold, hTimer, hSetup]

theorem openWith_header
    (d : Impl)
    (method uri : Bytes)
    (async : Bool)
    (setup : Setup) :
    (d.openWith method uri async setup).header =
      d.header := by
  unfold openWith prepare
  cases proccessUri uri with
  | none => rfl
  | some elements =>
      exact openPlain_header _ setup

theorem send_header (d : Impl) : d.send.header = d.header := by
  unfold send sendGet sendPost
  split
  · split <;> rfl
  · split <;> rfl
  · rfl

theorem AbsorbsRun.header
    {s : HttpTlsSession}
    (hRuns : d.AbsorbsRun d' s) :
    d'.header = d.header := by
  rcases hRuns.runsSession with ⟨_, _, _, _, _, rfl⟩
  rfl

/- An event changes the header by the fields that it sets. -/
theorem step_header
    {event : RequestEvent}
    (hStep : d.step event = some d') :
    d'.header = d.header.addAll event.fields := by
  cases event with
  | openPlain setup =>
      rw [← Option.some.inj hStep]
      exact d.openPlain_header setup
  | openWith method uri async setup =>
      rw [← Option.some.inj hStep]
      exact d.openWith_header method uri async setup
  | openAuth method uri async user password setup =>
      rw [← Option.some.inj hStep]
      have hOpen := d.openWith_header method uri async setup
      simp only [openAuth, setRequestHeader, hOpen]
      rfl
  | setRequestHeader name value =>
      rw [← Option.some.inj hStep]
      rfl
  | setTimeout milliseconds =>
      rw [← Option.some.inj hStep]
      unfold setTimeout
      split <;> rfl
  | setOnTimeoutCallback cb =>
      rw [← Option.some.inj hStep]
      rfl
  | setOnReadyCallback cb =>
      rw [← Option.some.inj hStep]
      rfl
  | setOnStateChangedCallback cb =>
      rw [← Option.some.inj hStep]
      rfl
  | overrideMimeType mime =>
      rcases Option.map_eq_some_iff.mp hStep with ⟨s, _, rfl⟩
      rfl
  | send =>
      rw [← Option.some.inj hStep]
      exact d.send_header
  | sendWithCallback cb =>
      rw [← Option.some.inj hStep]
      unfold sendWithCallback
      split
      · rfl
      · exact (d.setOnReadyCallback cb).send_header
  | sendBody body =>
      rw [← Option.some.inj hStep]
      unfold sendPost
      split <;> rfl
  | abort =>
      rcases abort_cases hStep with ⟨s, _, rfl⟩
      rfl
  | job outcome =>
      rcases unlessStopped_cases hStep with rfl | ⟨_, hJob⟩
      · rfl
      · rcases nextJob_cases hJob with
          rfl | ⟨jobs, rfl | ⟨s, _, hRuns⟩⟩
        · rfl
        · rfl
        · exact hRuns.header
  | handler handled =>
      rcases unlessStopped_cases hStep with rfl | ⟨_, hRun⟩
      · rfl
      · rcases runHandler_cases hRun with
          rfl | ⟨s, _, hRuns⟩
        · rfl
        · exact hRuns.header
  | timer code =>
      rcases unlessStopped_cases hStep with rfl | ⟨_, hTimer⟩
      · rfl
      · rcases timerDone_cases hTimer with
          rfl | ⟨timer, rfl | ⟨s, _, _, _, rfl⟩⟩
        · rfl
        · rfl
        · rfl
  | timerCancelled =>
      rcases unlessStopped_cases hStep with rfl | ⟨_, hTimer⟩
      · rfl
      · rcases timerCancelled_cases hTimer with
          rfl | ⟨timer, rfl⟩
        · rfl
        · rfl

/- The fields that a run sets, in the order of the calls. -/
def fieldsSet (events : List RequestEvent) :
    List (Bytes × HeaderValue) :=
  events.flatMap RequestEvent.fields

theorem run_header
    {events : List RequestEvent}
    (hRun : Transition.exec step d events = some d') :
    d'.header = d.header.addAll (fieldsSet events) := by
  induction events generalizing d with
  | nil =>
      rw [← Option.some.inj hRun]
      rfl
  | cons event events ih =>
      rcases Transition.exec_cons_eq_some_iff.mp hRun with
        ⟨next, hStep, hRest⟩
      rw [ih hRest, step_header hStep, ← Header.addAll_append]
      rfl

end Impl

end Network

------------------------------------------------------------
-- Credentials
------------------------------------------------------------

namespace Network

open Base64

/-
  The user and the password in an `Authorization` field, for a
  reader that knows the Base64 alphabet.
-/
def readBasic (value : Bytes) : Option (Bytes × Bytes) :=
  if (ascii "Basic ").isPrefixOf value then
    (read rfcIndex 61 (value.drop 6)).map fun text =>
      (text.takeWhile (· ≠ 58),
        (text.dropWhile (· ≠ 58)).drop 1)
  else none

/- A text is Base64 with padding, of the length it must have. -/
structure IsBase64 (array text : Bytes) : Prop where
  encoded : text = encode rfcChar 61 array
  length : text.length = 4 * ((array.length + 2) / 3)

theorem encodeFromArray_isBase64 (array : Bytes) :
    IsBase64 array (encodeFromArray array) := by
  constructor
  · rw [encodeFromArray_eq, encode_rfc]
  · rw [encodeFromArray_eq]
    exact (encode_shape array).1

/- The first colon ends the user, unless the user holds one. -/
theorem cut_credentials_iff (user password : Bytes) :
    ((user ++ [58] ++ password).takeWhile (· ≠ 58) = user ∧
        ((user ++ [58] ++ password).dropWhile
          (· ≠ 58)).drop 1 = password) ↔
      58 ∉ user := by
  rw [List.append_assoc]
  constructor
  · rintro ⟨hUser, -⟩ hColon
    rw [← hUser] at hColon
    simpa using List.mem_takeWhile_imp hColon
  · intro hNone
    have hPlain : ∀ c ∈ user, decide (c ≠ 58) = true := by
      intro c hC
      rw [decide_eq_true_eq]
      rintro rfl
      exact hNone hC
    rw [List.takeWhile_append_of_pos hPlain,
      List.dropWhile_append_of_pos hPlain]
    simp

theorem readBasic_basicValue_iff (user password : Bytes) :
    readBasic (basicValue user password).value =
        some (user, password) ↔
      58 ∉ user := by
  have hDrop :
      (basicValue user password).value.drop 6 =
        encodeFromArray (user ++ [58] ++ password) := rfl
  have hBasic :
      (ascii "Basic ").isPrefixOf
        (basicValue user password).value = true :=
    List.isPrefixOf_iff_prefix.mpr (List.prefix_append _ _)
  have hText :=
    encodeFromArray_isBase64 (user ++ [58] ++ password)
  rw [← cut_credentials_iff user password]
  unfold readBasic
  rw [if_pos hBasic, hDrop, hText.encoded, read_rfc]
  simp

/-
  The encoder writes Base64, from indices in the alphabet.  An
  open with credentials adds their field, from which they are
  read back exactly when the user holds no colon.
-/
theorem basic_credentials
    (array : Bytes)
    (d : Impl)
    (method uri : Bytes)
    (async : Bool)
    (user password : Bytes)
    (setup : Setup) :
    IsBase64 array (encodeFromArray array) ∧
    (∀ n,
      encodeGroup array n =
          (encodeIndices array n).map uriChar ∧
        ∀ index ∈ encodeIndices array n, index < 64) ∧
    (∃ value,
      (d.openAuth method uri async user password
          setup).header =
        d.header.emplace (ascii "Authorization")
          ⟨ascii "Basic " ++ value, false⟩ ∧
      IsBase64 (user ++ [58] ++ password) value ∧
      (readBasic (ascii "Basic " ++ value) =
          some (user, password) ↔
        58 ∉ user)) := by
  refine ⟨encodeFromArray_isBase64 array,
    encodeGroup_indices array,
    encodeFromArray (user ++ [58] ++ password), ?_,
    encodeFromArray_isBase64 _,
    readBasic_basicValue_iff user password⟩
  simp only [Impl.openAuth, Impl.setRequestHeader,
    Impl.openWith_header]

end Network
