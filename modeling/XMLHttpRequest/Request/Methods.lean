import Mathlib.Data.List.TakeDrop
import XMLHttpRequest.Request.Submissions

/-
  Which methods are sent for the methods that are named.

  Key definitions include:
    * `Network.Misnames`
    * `Network.Impl.OpenedAs`
    * `Network.Impl.SendsNamed`
    * `Network.Impl.NamesOne`

  Key theorems include:
    * `Network.methodFromString_iff`
    * `Network.Impl.sent_methods_iff`
-/

------------------------------------------------------------
-- Names
------------------------------------------------------------

namespace Network

/-
  A text that is read for the method `m` begins with a name,
  in capitals, that is not the method.
-/
def Misnames (m text : Bytes) : Prop :=
  (methodGet <+: toUpper text ∧ toUpper m ≠ methodGet) ∨
    (methodPost <+: toUpper text ∧ toUpper m ≠ methodPost)

instance (m text : Bytes) : Decidable (Misnames m text) := by
  unfold Misnames
  infer_instance

theorem methodFromString_get_iff (m : Bytes) :
    methodFromString m = .get ↔ methodGet <+: toUpper m := by
  unfold methodFromString
  rw [← List.isPrefixOf_iff_prefix]
  by_cases hGet : methodGet.isPrefixOf (toUpper m) = true
  · simp [hGet]
  · refine iff_of_false ?_ hGet
    rw [if_neg hGet]
    intro hMethod
    split at hMethod <;> cases hMethod

/- No text begins with both names. -/
theorem not_both_names
    {text : Bytes}
    (hGet : methodGet <+: text) :
    ¬ methodPost <+: text := by
  intro hPost
  have hOrder :=
    List.prefix_of_prefix_length_le hGet hPost (by decide)
  exact absurd hOrder (by decide)

theorem methodFromString_post_iff (m : Bytes) :
    methodFromString m = .post ↔
      methodPost <+: toUpper m := by
  by_cases hGet : methodGet <+: toUpper m
  · have hIs := (methodFromString_get_iff m).mpr hGet
    rw [hIs]
    exact iff_of_false (fun h => by cases h)
      (not_both_names hGet)
  · unfold methodFromString
    rw [← List.isPrefixOf_iff_prefix] at hGet ⊢
    simp only [hGet]
    by_cases hPost :
        methodPost.isPrefixOf (toUpper m) = true
    · simp [hPost]
    · simp [hPost]

/-
  Each name is recognized in itself alone unless the method
  goes on after a name.
-/
theorem methodFromString_iff (m : Bytes) :
    ((methodFromString m = .get ↔ toUpper m = methodGet) ∧
      (methodFromString m = .post ↔
        toUpper m = methodPost)) ↔
      ¬ Misnames m m := by
  rw [methodFromString_get_iff, methodFromString_post_iff]
  constructor
  · rintro ⟨hGet, hPost⟩ (⟨hBegins, hOther⟩ | ⟨hBegins, hOther⟩)
    · exact hOther (hGet.mp hBegins)
    · exact hOther (hPost.mp hBegins)
  · intro hNot
    refine ⟨⟨?_, ?_⟩, ⟨?_, ?_⟩⟩
    · intro hBegins
      by_contra hOther
      exact hNot (.inl ⟨hBegins, hOther⟩)
    · intro hSame
      exact hSame ▸ List.prefix_rfl
    · intro hBegins
      by_contra hOther
      exact hNot (.inr ⟨hBegins, hOther⟩)
    · intro hSame
      exact hSame ▸ List.prefix_rfl

/- What a text is recognized as is the method or misnames it. -/
theorem toUpper_eq_name_iff
    {m text : Bytes}
    (hKnown : methodFromString text ≠ .unknown) :
    ¬ Misnames m text ↔
      toUpper m = stringFromEnum (methodFromString text) := by
  cases hMethod : methodFromString text with
  | unknown => exact absurd hMethod hKnown
  | get =>
      have hBegins :=
        (methodFromString_get_iff text).mp hMethod
      have hNotPost := not_both_names hBegins
      simp only [Misnames, hBegins, hNotPost, true_and,
        false_and, or_false, not_not, stringFromEnum]
  | post =>
      have hBegins :=
        (methodFromString_post_iff text).mp hMethod
      have hNotGet :
          ¬ methodGet <+: toUpper text :=
        fun hGet => not_both_names hGet hBegins
      simp only [Misnames, hBegins, hNotGet, true_and,
        false_and, false_or, not_not, stringFromEnum]

/- The names are those of the methods that are known. -/
theorem name_of_known
    {method : Method}
    (hKnown : method ≠ .unknown) :
    stringFromEnum method = methodGet ∨
      stringFromEnum method = methodPost := by
  cases method with
  | get => exact .inl rfl
  | post => exact .inr rfl
  | unknown => exact absurd rfl hKnown

theorem cString_name (method : Method) :
    cString (stringFromEnum method) =
      stringFromEnum method := by
  cases method <;> decide

theorem toUpperChar_idem (c : UInt8) :
    toUpperChar (toUpperChar c) = toUpperChar c := by
  induction c using forall_byte with
  | hBytes n =>
      revert n
      decide +kernel

/- What is stored of a method is recognized as the method. -/
theorem methodFromString_toUpper (m : Bytes) :
    methodFromString (toUpper m) = methodFromString m := by
  have hIdem : toUpper (toUpper m) = toUpper m := by
    simp only [toUpper, List.map_map]
    exact List.map_congr_left fun c _ => toUpperChar_idem c
  unfold methodFromString
  rw [hIdem]

/- A name is told by its length. -/
theorem name_of_length
    {text : Bytes}
    {method : Method}
    (hName : text = methodGet ∨ text = methodPost)
    (hKnown : method ≠ .unknown)
    (hLength :
      (stringFromEnum method).length = text.length) :
    text = stringFromEnum method := by
  rcases hName with rfl | rfl <;> cases method with
  | unknown => exact absurd rfl hKnown
  | get => first | rfl | exact absurd hLength (by decide)
  | post => first | rfl | exact absurd hLength (by decide)

end Network

------------------------------------------------------------
-- Methods Sent
------------------------------------------------------------

namespace Network

namespace Impl

variable {d d' : Impl}
variable {m : Bytes}

/-
  What an open or a constructor leaves as the method: the text
  that it is given, or that of before where the URI is
  rejected.
-/
def methodText (d : Impl) (text uri : Bytes) : Bytes :=
  if (proccessUri uri).isSome then text else d.method

/-
  The request has been constructed or opened with the method
  `m`, for which `text` is taken.
-/
inductive OpenedAs : Bytes → Bytes → Impl → Prop
  | create
      (m url : Bytes)
      (async : Bool)
      (setup : Setup) :
      OpenedAs m (methodText {} m url)
        (create m url async setup)
  | createFromView
      (m url : StringView)
      (async : Bool)
      (setup : Setup) :
      OpenedAs m.text (methodText {} m.data url.data)
        (createFromView m url async setup)
  | openWith
      (d : Impl)
      (m uri : Bytes)
      (async : Bool)
      (setup : Setup) :
      OpenedAs m (d.methodText m uri)
        (d.openWith m uri async setup)
  | openAuth
      (d : Impl)
      (m uri : Bytes)
      (async : Bool)
      (user password : Bytes)
      (setup : Setup) :
      OpenedAs m (d.methodText m uri)
        (d.openAuth m uri async user password setup)

/- The stored method is recognized as the text is. -/
def Recognizes (text : Bytes) (d : Impl) : Prop :=
  methodFromString d.method = methodFromString text

/-
  What the event gives to nghttp2 is sent with the method that
  was named, which is one of the two.
-/
def SendsNamed
    (m : Bytes)
    (d : Impl)
    (event : LaterEvent) : Prop :=
  ∀ request ∈ d.given event.1,
    (toUpper m = methodGet ∨ toUpper m = methodPost) ∧
      request.nva.head? =
        some
          { name := ascii ":method", value := toUpper m }

/-
  Where nghttp2 takes a request, the text does not misname the
  method, which still stands where its copy was.
-/
def NamesOne
    (m text : Bytes)
    (d : Impl)
    (event : LaterEvent) : Prop :=
  ∀ submission, d.Submits event.1 submission →
    ¬ Misnames m text ∧
      submission.stale.takeD (toUpper m).length 0 = toUpper m

theorem prepare_recognizes
    (d : Impl)
    (text uri : Bytes)
    (async : Bool) :
    Recognizes (d.methodText text uri)
      (d.prepare text uri async).1 := by
  unfold prepare methodText Recognizes
  cases proccessUri uri with
  | some elements => exact methodFromString_toUpper text
  | none => rfl

theorem openWith_recognizes
    (d : Impl)
    (m uri : Bytes)
    (async : Bool)
    (setup : Setup) :
    Recognizes (d.methodText m uri)
      (d.openWith m uri async setup) := by
  have hPrepared := d.prepare_recognizes m uri async
  unfold openWith
  split
  · rename_i prepared ok hSame
    rw [hSame] at hPrepared
    split
    · unfold Recognizes
      rw [(prepared.openPlain_keepsRequests setup).1]
      exact hPrepared
    · exact hPrepared

theorem create_recognizes
    (text url : Bytes)
    (async : Bool)
    (setup : Setup) :
    Recognizes (methodText {} text url)
      (create text url async setup) := by
  have hPrepared := prepare_recognizes {} text url async
  unfold create Recognizes
  rw [(setup_keepsRequests _ setup).1]
  exact hPrepared

theorem OpenedAs.recognizes
    {text : Bytes}
    (hOpened : OpenedAs m text d) :
    Recognizes text d := by
  cases hOpened with
  | create m url async setup =>
      exact create_recognizes m url async setup
  | createFromView m url async setup =>
      exact create_recognizes m.data url.data async setup
  | openWith d m uri async setup =>
      exact d.openWith_recognizes m uri async setup
  | openAuth d m uri async user password setup =>
      exact d.openWith_recognizes m uri async setup

/- What stands first in the list of a fetch. -/
theorem head_requestFor
    (d : Impl)
    (body : Bool)
    (u : HttpParserUrl)
    (submission : Submission) :
    (HttpTlsSession.requestFor (d.fetchArguments body) u
        submission).nva.head? =
      some
        { name := ascii ":method"
          value :=
            submission.stale.takeD
              (stringFromEnum
                (methodFromString d.method)).length 0 } := by
  have hName := cString_name (methodFromString d.method)
  simp only [HttpTlsSession.requestFor, fetchArguments,
    submittedNva, hName]
  rfl

/- One step sends what was named if and only if it names one. -/
theorem sendsNamed_iff
    {text : Bytes}
    (hRecognizes : Recognizes text d)
    (event : LaterEvent) :
    SendsNamed m d event ↔ NamesOne m text d event := by
  constructor
  · rintro hSends submission
      ⟨outcome, s, u, body, hEvent, rfl, hFetches⟩
    have hMem := hFetches.given_eq ▸ List.mem_singleton_self _
    rw [← hEvent] at hMem
    rcases hSends _ hMem with ⟨hOne, hHead⟩
    rw [head_requestFor, hRecognizes, Option.some.injEq,
      NameValue.mk.injEq] at hHead
    have hKnown := hFetches.method
    rw [hRecognizes] at hKnown
    have hIs :
        toUpper m = stringFromEnum (methodFromString text) := by
      apply name_of_length hOne hKnown
      rw [← hHead.2.1, List.takeD_length]
    refine ⟨(toUpper_eq_name_iff hKnown).mpr hIs, ?_⟩
    rw [← hIs] at hHead
    exact hHead.2.1
  · intro hNames request hGiven
    rcases submits_of_given hGiven with
      ⟨outcome, s, u, body, hEvent, hFetches⟩
    rcases hNames outcome.submission
        ⟨outcome, s, u, body, hEvent, rfl, hFetches⟩ with
      ⟨hNot, hStale⟩
    have hKnown := hFetches.method
    rw [hRecognizes] at hKnown
    have hIs := (toUpper_eq_name_iff hKnown).mp hNot
    rw [hEvent, hFetches.given_eq,
      List.mem_singleton] at hGiven
    rw [hGiven, head_requestFor, hRecognizes, ← hIs, hStale]
    refine ⟨?_, rfl⟩
    rw [hIs]
    exact name_of_known hKnown

/-
  Each name is recognized in itself alone exactly when the
  method does not go on after one.  What a run gives to
  nghttp2 is sent with the method that was named exactly when
  the text that was taken for it does not misname it, and its
  copy survives, wherever a request is taken.
-/
theorem sent_methods_iff
    {text : Bytes}
    (hOpened : OpenedAs m text d)
    (events : List LaterEvent) :
    (((methodFromString m = .get ↔ toUpper m = methodGet) ∧
        (methodFromString m = .post ↔
          toUpper m = methodPost)) ↔
      ¬ Misnames m m) ∧
    (Transition.Along stepLater (SendsNamed m) d events ↔
      Transition.Along stepLater (NamesOne m text) d
        events) := by
  refine ⟨methodFromString_iff m, ?_⟩
  apply Transition.along_congr (I := Recognizes text)
  · intro d event hRecognizes
    exact sendsNamed_iff hRecognizes event
  · intro d event d' hRecognizes _ hStep
    unfold Recognizes
    rw [(stepLater_given hStep).1]
    exact hRecognizes
  · exact hOpened.recognizes

/- The job of a fetch, with what nghttp2 reads in it. -/
def fetchOne (stale : Bytes) : LaterEvent :=
  ⟨.job
    { submission := { stale := stale, assignedId := 1 } },
    rfl⟩

/- A send and its two jobs. -/
def sentRun (stale : Bytes) : List LaterEvent :=
  [ ⟨.send, rfl⟩,
    ⟨.job
      { connection := HttpTlsSession.h2Connection
        submission := { stale := stale, assignedId := 1 } },
      rfl⟩,
    fetchOne stale ]

/- A method named in lower case, whose copy survives. -/
theorem sent_methods_lower_case :
    Transition.Along stepLater (SendsNamed (ascii "get"))
      (create (ascii "get") (ascii "https://a.com/") true
        freshSetup)
      (sentRun (ascii "GET")) := by
  have hNot :
      ¬ Misnames (ascii "get")
        (methodText {} (ascii "get")
          (ascii "https://a.com/")) := by
    decide +kernel
  have hStale :
      (ascii "GET").takeD (toUpper (ascii "get")).length 0 =
        toUpper (ascii "get") := by
    decide +kernel
  refine ((sent_methods_iff (.create _ _ _ _) _).2).mpr
    ⟨?_, fun _ _ => ⟨?_, fun _ _ => ⟨?_, fun _ _ => ?_⟩⟩⟩
  · rintro submission ⟨_, _, _, _, hEvent, _⟩
    cases hEvent
  · rintro submission ⟨_, _, _, _, hEvent, rfl, _⟩
    cases hEvent
    exact ⟨hNot, hStale⟩
  · rintro submission ⟨_, _, _, _, hEvent, rfl, _⟩
    cases hEvent
    exact ⟨hNot, hStale⟩
  · trivial

/- A view is read on behind its end. -/
example :
    (createFromView ⟨ascii "PO", ascii "ST"⟩
      ⟨ascii "https://a.com/", []⟩ true freshSetup).method =
        methodPost := by
  decide +kernel

/- A method that goes on after a name is sent as the name. -/
theorem sent_methods_getx :
    ¬ ∀ (m text : Bytes) (d : Impl)
        (events : List LaterEvent),
      OpenedAs m text d →
        Transition.Along stepLater (SendsNamed m) d
          events := by
  intro hAll
  have hAlong :=
    hAll (ascii "GETX") _
      (create (ascii "GETX") (ascii "https://a.com/") true
        freshSetup)
      (sentRun (ascii "GET")) (.create _ _ _ _)
  have hGiven :
      (Transition.exec stepLater
        (create (ascii "GETX") (ascii "https://a.com/") true
          freshSetup)
        ((sentRun (ascii "GET")).take 2)).map
          (fun d => (d.given (fetchOne (ascii "GET")).1).length) =
        some 1 := by
    decide +kernel
  rcases Option.map_eq_some_iff.mp hGiven with
    ⟨middle, hMiddle, hOne⟩
  have hSplit :
      sentRun (ascii "GET") =
        (sentRun (ascii "GET")).take 2 ++
          [fetchOne (ascii "GET")] := rfl
  rw [hSplit] at hAlong
  rcases List.length_eq_one_iff.mp hOne with
    ⟨request, hRequest⟩
  have hNamed :=
    (hAlong.last hMiddle request
      (hRequest ▸ List.mem_singleton_self request)).1
  exact absurd hNamed (by decide +kernel)

end Impl

end Network
