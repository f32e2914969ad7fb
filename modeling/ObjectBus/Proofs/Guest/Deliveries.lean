import ObjectBus.Proofs.Guest.Waiting

/-!
# What a guest is given around its preload

While a guest finishes its preload it keeps the frames that arrive and gives them to its caller
together, once the acknowledgement comes. If it fails before, what it has kept goes with it.
Whoever receives frames one by one loses nothing.

* `Arrival.deliveries`: what arrives for the caller, objects and the marks of the ends of replays;
* `Guest.receiveTimes`, `Guest.given_receiveTimes`: one call of `receive` after another;
* `Guest.Ending`, `Guest.exists_ending`: how finishing the preload ends;
* `Guest.given_around_preload`: what is given by both, in order.
-/

namespace ObjectBus

/-- Whether a frame is for the caller of a guest: an object or the mark of the end of a replay. -/
def Transmission.delivers (t : Transmission) : Bool :=
  match t.payload with
  | .object _ => true
  | .control (.cacheInfo _ endsReplay _) => endsReplay
  | .control _ => false

/-- The frames for the caller among what arrives, in order. -/
def Arrival.deliveries (arrivals : List Arrival) : List Transmission :=
  (arrivals.filterMap (·.toOption)).filter (·.delivers)

namespace Arrival

variable {t : Transmission}

@[simp]
theorem deliveries_append (arrivals arrivals' : List Arrival) :
    deliveries (arrivals ++ arrivals') = deliveries arrivals ++ deliveries arrivals' := by
  simp [deliveries]

@[simp]
theorem deliveries_map_ok (frames : List Transmission) :
    deliveries (frames.map .ok) = frames.filter (·.delivers) := by
  have hframes : (frames.map Except.ok : List Arrival).filterMap (·.toOption) = frames := by
    rw [List.filterMap_map]
    exact List.filterMap_some
  rw [deliveries, hframes]

theorem deliveries_ok (t : Transmission) :
    deliveries [.ok t] = if t.delivers then [t] else [] := by
  rw [← List.map_singleton, deliveries_map_ok, List.filter_singleton]
  cases t.delivers <;> rfl

/-- A notice is for the guest. -/
theorem deliveries_of_reportedError {e : BrokerError} (h : t.reportedError? = some e) :
    deliveries [.ok t] = [] := by
  have hdelivers : t.delivers = false := by
    unfold Transmission.reportedError? at h
    split at h
    · rename_i hpayload
      rw [Transmission.delivers, hpayload]
    · cases h
  rw [deliveries_ok, hdelivers]
  rfl

end Arrival

namespace Guest

open Arrival (deliveries)

variable {g : Guest} {t : Transmission}

/-- Whether a frame acknowledges that the preload has finished. -/
def acknowledges (t : Transmission) : Bool := (t.control?.map acknowledgesPreload).getD false

/-- An acknowledgement is for the guest. -/
theorem deliveries_of_acknowledges (h : acknowledges t = true) : deliveries [.ok t] = [] := by
  have hdelivers : t.delivers = false := by
    unfold acknowledges Transmission.control? at h
    unfold Transmission.delivers
    split
    · simp [*] at h
    · rename_i hpayload
      simp [hpayload, acknowledgesPreload] at h
    · rfl
  rw [Arrival.deliveries_ok, hdelivers]
  rfl

/-! ## Receiving -/

/-- What a guest is given by one call of `receive` after another. -/
def receiveTimes : Nat → Guest → List Arrival → List (Outcome (Option Transmission))
  | 0, _, _ => []
  | n + 1, g, arrivals =>
    let r := (g.receive arrivals).value
    r.1.2 :: receiveTimes n r.1.1 r.2

/-- The frames for the caller among what it is given one by one. -/
def given (outcomes : List (Outcome (Option Transmission))) : List Transmission :=
  (outcomes.filterMap (·.toOption.join)).filter (·.delivers)

theorem given_cons (outcome : Outcome (Option Transmission))
    (outcomes : List (Outcome (Option Transmission))) :
    given (outcome :: outcomes) = given [outcome] ++ given outcomes := by
  rw [← List.singleton_append]
  simp only [given, List.filterMap_append, List.filter_append]

/-- A call takes what arrives next, and gives it if it is for the caller. -/
theorem receive_cons (g : Guest) (a : Arrival) (rest : List Arrival) :
    ∃ g' outcome, (g.receive (a :: rest)).value = ((g', outcome), rest) ∧
      given [outcome] = deliveries [a] := by
  cases a with
  | error e =>
    refine ⟨(receiving.failed g e).1, (receiving.failed g e).2, rfl, ?_⟩
    unfold receiving
    simp only
    split <;> rfl
  | ok t =>
    -- A notice is given as an error or as the end, whatever else is given as it came.
    by_cases hnotice : ∃ code text, t.payload = .control (.error code text)
    · obtain ⟨code, text, hpayload⟩ := hnotice
      have hnone : deliveries [.ok t] = [] := by
        rw [Arrival.deliveries_ok, Transmission.delivers, hpayload]
        rfl
      rw [hnone]
      by_cases hcode : code = NoticeCode.goodbye.number
      · have htake : (receiving.take g t).value =
            .ended ({ g with state := .closed }, .ok none) := by
          simp [receiving, hpayload, hcode]
        exact ⟨_, _, Call.value_await_of_ended htake rest, rfl⟩
      · have htake : (receiving.take g t).value =
            .ended (g, .error (.peerError code text)) := by
          simp [receiving, hpayload, hcode]
        exact ⟨_, _, Call.value_await_of_ended htake rest, rfl⟩
    · have htake : (receiving.take g t).value = .ended (g, .ok (some t)) := by
        unfold receiving
        simp only
        split
        · exact absurd ⟨_, _, ‹_›⟩ hnotice
        · rfl
      refine ⟨_, _, Call.value_await_of_ended htake rest, ?_⟩
      rw [Arrival.deliveries_ok, given]
      cases hdelivers : t.delivers <;> simp [Except.toOption, hdelivers]

/-- Receiving loses nothing, and gives everything once and in order. -/
theorem given_receiveTimes (n : Nat) (g : Guest) (arrivals : List Arrival) :
    given (receiveTimes n g arrivals) = deliveries (arrivals.take n) := by
  induction n generalizing g arrivals with
  | zero => rfl
  | succ n ih =>
    rw [receiveTimes, given_cons, ih]
    cases arrivals with
    | nil =>
      have hclosed : (g.receive []).value = (({ g with state := .closed }, .ok none), []) := rfl
      rw [hclosed, List.take_nil, List.take_nil]
      rfl
    | cons a rest =>
      obtain ⟨g', outcome, hreceive, houtcome⟩ := receive_cons g a rest
      rw [hreceive, houtcome, List.take_succ_cons, ← Arrival.deliveries_append]
      rfl

/-! ## Finishing the preload -/

/-- How finishing the preload ends behind the frames that were kept, with what arrives last and what
is left. -/
inductive Ending (kept : List Transmission) (rest : List Arrival) :
    List Arrival → Outcome (List Transmission) → Prop
  /-- The acknowledgement arrives. -/
  | acknowledged {t : Transmission} (ht : acknowledges t = true) :
      Ending kept rest [.ok t] (.ok kept)
  /-- A notice reports an error. -/
  | reported {t : Transmission} {e : BrokerError} (ht : t.reportedError? = some e) :
      Ending kept rest [.ok t] (.error e)
  /-- The transport fails. -/
  | failed (e : TransportError) : Ending kept rest [.error e] (.error (.transport e))
  /-- Nothing is left. -/
  | exhausted (hrest : rest = []) : Ending kept rest [] (.error (.transport .closed))

/-- What arrives last is for the guest. -/
theorem Ending.deliveries_eq {kept : List Transmission} {rest ending : List Arrival}
    {outcome : Outcome (List Transmission)} (h : Ending kept rest ending outcome) :
    deliveries ending = [] := by
  cases h with
  | acknowledged ht => exact deliveries_of_acknowledges ht
  | reported ht => exact Arrival.deliveries_of_reportedError ht
  | failed | exhausted => rfl

theorem value_take_acknowledging (ht : acknowledges t = true) (g : Guest)
    (kept : List Transmission) : (preloading.take (g, kept) t).value =
      .ended ({ g with state := .connected }, .ok kept) := by
  rw [acknowledges] at ht
  unfold preloading
  simp only [ht, if_true]
  rfl

theorem value_take_reported {e : BrokerError} (hother : acknowledges t = false)
    (ht : t.reportedError? = some e) (g : Guest) (kept : List Transmission) :
    (preloading.take (g, kept) t).value = .ended (g, .error e) := by
  rw [acknowledges] at hother
  unfold preloading
  simp only [hother, ht, Bool.false_eq_true, if_false]
  rfl

/-- A guest keeps frames until something ends the call. -/
theorem exists_ending (g : Guest) (kept : List Transmission) (arrivals : List Arrival) :
    ∃ more ending rest g' outcome,
      (preloading.await (g, kept) arrivals).value = ((g', outcome), rest) ∧
      arrivals = more.map .ok ++ (ending ++ rest) ∧ (∀ t ∈ more, t.PrecedesLive) ∧
      Ending (kept ++ more) rest ending outcome := by
  -- By induction on what arrives, for whatever was kept so far.
  induction arrivals generalizing kept with
  | nil =>
    have hvalue : (preloading.await (g, kept) []).value =
        ((g, .error (.transport .closed)), []) := rfl
    exact ⟨[], [], [], _, _, hvalue, rfl, by simp, .exhausted rfl⟩
  | cons a rest ih =>
    cases a with
    | error e =>
      have hvalue : (preloading.await (g, kept) (.error e :: rest)).value =
          ((g, .error (.transport e)), rest) := rfl
      exact ⟨[], [.error e], rest, _, _, hvalue, rfl, by simp, .failed e⟩
    | ok t =>
      cases hack : acknowledges t with
      | true =>
        refine ⟨[], [.ok t], rest, _, _,
          Call.value_await_of_ended (value_take_acknowledging hack g kept) rest, rfl, by simp, ?_⟩
        rw [List.append_nil]
        exact .acknowledged hack
      | false =>
        cases hreported : t.reportedError? with
        | some e =>
          exact ⟨[], [.ok t], rest, _, _,
            Call.value_await_of_ended (value_take_reported hack hreported g kept) rest, rfl,
            by simp, .reported hreported⟩
        | none =>
          have hprecedes : t.PrecedesLive := ⟨hack, hreported⟩
          have htake := value_take_preceding hprecedes g kept
          obtain ⟨more, ending, left, g', outcome, hvalue, hrest, hmore, hending⟩ :=
            ih (kept ++ [t])
          rw [List.append_assoc, List.singleton_append] at hending
          refine ⟨t :: more, ending, left, g', outcome,
            (Call.value_await_of_waiting htake rest).trans hvalue, ?_,
            List.forall_mem_cons.2 ⟨hprecedes, hmore⟩, hending⟩
          rw [List.map_cons, List.cons_append, ← hrest]

/-- What a guest is given when it finishes its preload and then receives frames one by one. It has
kept what arrived in front of what ended the call. If that was the acknowledgement, every object and
every mark of the end of a replay is given once and in order. Otherwise what it has kept is lost,
and nothing else. -/
theorem given_around_preload (hearly : g.state = .earlySubscribe) (arrivals : List Arrival)
    (now : Instant) (n : Nat) :
    ∃ kept ending rest g' outcome,
      (g.finishPreload arrivals now).value = ((g', outcome), rest) ∧
      arrivals = kept.map .ok ++ (ending ++ rest) ∧ (∀ t ∈ kept, t.PrecedesLive) ∧
      Ending kept rest ending outcome ∧
      (outcome.toOption.getD []).filter (·.delivers) ++ given (receiveTimes n g' rest) =
        if outcome.isOk then deliveries (kept.map .ok ++ (ending ++ rest.take n))
        else deliveries (rest.take n) := by
  obtain ⟨kept, ending, rest, g', outcome, hvalue, harrivals, hkept, hending⟩ :=
    exists_ending (g.sendControl .preloadClientFinished now) [] arrivals
  rw [List.nil_append] at hending
  refine ⟨kept, ending, rest, g', outcome, ?_, harrivals, hkept, hending, ?_⟩
  · rw [finishPreload, if_pos hearly, hvalue]
  · rw [given_receiveTimes]
    have hnone := hending.deliveries_eq
    cases hending with
    | acknowledged =>
      rw [Arrival.deliveries_append, Arrival.deliveries_append, hnone, Arrival.deliveries_map_ok]
      rfl
    | reported | failed | exhausted => rfl

/-! ## Readers of the board -/

/-- A reader that the board has accepted for preloading and that joins the notes. -/
def patient : Guest :=
  ((named "reader" "board" true default).accepted 2 true).join Broker.noteSchema.name default

/-- A reader that besides publishes a note of its own before it has finished its preload. -/
def hasty : Guest := patient.publish Broker.noteSchema (Broker.note 2 "hasty") none default

/-- The board when it has taken all that a reader has sent, and with it the statement that the
reader has finished, and has published another note. -/
def boardAfter (reader : Guest) : Broker :=
  Broker.board.after ((reader.sendControl .preloadClientFinished default).sent.map
    (fun t => (.receive 2 t, default)) ++ [(.publish (Broker.note 3 "news") none false, default)])

/-- What the board has sent a reader behind the acceptance. -/
def answersTo (reader : Guest) : List Arrival :=
  (((boardAfter reader).framesTo 2).drop 2).map .ok

/-- The patient reader is given the note that was there and the mark of the end of the replay when
it finishes its preload, and the other note when it receives once more. -/
theorem patient_is_given_notes : ∃ kept g' rest,
    (patient.finishPreload (answersTo patient) default).value = ((g', .ok kept), rest) ∧
      kept.filter (·.delivers) ++ given (receiveTimes 1 g' rest) = deliveries (answersTo patient) ∧
      (deliveries (answersTo patient)).length = 3 := by
  obtain ⟨kept, ending, rest, g', outcome, hvalue, harrivals, -, hending, hgiven⟩ :=
    given_around_preload (g := patient) rfl (answersTo patient) default 1
  obtain ⟨kept', last, hfinished⟩ : ∃ kept' last,
      (patient.finishPreload (answersTo patient) default).value =
        (({ patient.sendControl .preloadClientFinished default with state := .connected },
          .ok kept'), [last]) := ⟨_, _, rfl⟩
  obtain ⟨⟨rfl, rfl⟩, rfl⟩ := by
    simpa only [Prod.mk.injEq] using hvalue.symm.trans hfinished
  refine ⟨kept', _, _, hfinished, ?_, rfl⟩
  rw [harrivals]
  exact hgiven

/-- The board sends the hasty reader the same and a notice that its note came too early, all but the
other note in front of the acknowledgement. Finishing the preload fails with the notice, and however
often the reader receives then, it is given the other note only. -/
theorem hasty_misses_notes :
    Broker.board.Reachable ∧
    (connect "reader" true (((boardAfter hasty).framesTo 2).map .ok) default).value =
      (((named "reader" "board" true default).accepted 2 true, .ok ()), answersTo hasty) ∧
    (deliveries (answersTo hasty)).length = 3 ∧
    ∃ g' text rest, (hasty.finishPreload (answersTo hasty) default).value =
        ((g', .error (.peerError 1 text)), rest) ∧
      ∀ n, (given (receiveTimes n g' rest)).length ≤ 1 := by
  obtain ⟨g', text, rest, hfinished, hleft⟩ : ∃ g' text rest,
      (hasty.finishPreload (answersTo hasty) default).value =
        ((g', .error (.peerError 1 text)), rest) ∧ (deliveries rest).length = 1 :=
    ⟨_, _, _, rfl, rfl⟩
  refine ⟨Broker.reachable_board, rfl, rfl, g', text, rest, hfinished, fun n => ?_⟩
  rw [given_receiveTimes, ← hleft]
  exact (((List.take_sublist n rest).filterMap _).filter _).length_le

end Guest

end ObjectBus
