import CilLoader.Proofs.Signature.SelfDelimiting

/-!
# The nesting that readings leave behind

A reader takes down the count of types that it is inside of, also if a type turns out to be damaged.
It does not do so for a type that it gives up at the limit. So each answer that the nesting goes too
deep leaves the count one higher, and takes one level of room from all readings after it. A reading
shows this exactly if it runs out of the room that is left.
-/

namespace CilLoader

namespace Decoder

open SignatureCode

variable {α β : Type}

/-! ## More room -/

/-- What comes of a reading if it is given more room. A reading that has run out gets further, or
meets something that it refuses. Any other stays as it is. -/
inductive Exceeds : (narrow wide : Except Error α × Nat) → Prop where
  | same {result : Except Error α} {stop : Nat} : ranOut result = false →
    Exceeds (result, stop) (result, stop)
  | further {limit stop after : Nat} {result : Except Error α} : stop < after →
    Exceeds (.error (.recursionLimit limit), stop) (result, after)
  | refused {limit stop after : Nat} {error : Error} : error.isRecursionLimit = false →
    Exceeds (.error (.recursionLimit limit), stop) (.error error, after)

/-- More room makes a difference exactly for a reading that has run out. -/
theorem Exceeds.eq_iff {narrow wide : Except Error α × Nat} (exceeds : Exceeds narrow wide) :
    narrow = wide ↔ ranOut narrow.1 = false := by
  cases exceeds with
  | same kept => exact ⟨fun _ => kept, fun _ => rfl⟩
  | further less =>
      constructor
      · intro same
        exact absurd (congrArg Prod.snd same) (Nat.ne_of_lt less)
      · rintro ⟨⟩
  | refused other =>
      constructor
      · rintro ⟨⟩
        cases other
      · rintro ⟨⟩

/-- The second decoder has more room, and never goes back. -/
structure Widens (narrow wide : Decoder α) : Prop where
  exceeds : ∀ data position, Exceeds (narrow data position) (wide data position)
  ordered : ∀ data position, position ≤ (wide data position).2

theorem Widens.bind {narrow wide : Decoder α} {next wideNext : α → Decoder β}
    (widens : Widens narrow wide) (widensNext : ∀ value, Widens (next value) (wideNext value)) :
    Widens (narrow >>= next) (wide >>= wideNext) where
  exceeds data position := by
    have compared := widens.exceeds data position
    rw [bind_apply, bind_apply]
    generalize narrow data position = outcome, wide data position = wideOutcome at compared ⊢
    cases compared with
    | @same result stop kept =>
        cases result with
        | ok value => exact (widensNext value).exceeds data stop
        | error error => exact .same kept
    | @further limit stop after result less =>
        cases result with
        | ok value =>
            have passed := (widensNext value).ordered data after
            exact .further (Nat.lt_of_lt_of_le less passed)
        | error error => exact .further less
    | refused other => exact .refused other
  ordered data position := by
    have begun := widens.ordered data position
    rw [bind_apply]
    rcases outcome : wide data position with ⟨_ | value, middle⟩
    · rwa [outcome] at begun
    · rw [outcome] at begun
      exact Nat.le_trans begun ((widensNext value).ordered data middle)

/-- A decoder that needs no room does not gain from more of it. -/
theorem Steady.widens {decoder : Decoder α} (steady : Steady decoder) :
    Widens decoder decoder where
  exceeds data position := .same (steady data position).2
  ordered data position := (steady data position).1

theorem congruence_widens :
    Grammar.Congruence (m := Decoder) (n := Decoder) fun _ narrow wide => Widens narrow wide where
  plain plain := plain.steady.widens
  succeed value := (Plain.succeed value).steady.widens
  bind := Widens.bind

theorem steady_peek : Steady peek := by
  intro data position
  rw [peek]
  split <;> exact ⟨Nat.le_refl position, rfl⟩

theorem widens_parameter {narrow wide : Decoder TypeSignature} (widens : Widens narrow wide) :
    Widens (Grammar.parameter narrow) (Grammar.parameter wide) :=
  congruence_widens.parameter steady_peek.widens widens

theorem steady_typeCode : Steady typeCode := by
  intro data position
  rw [← typeCodeUpTo_of_le (Nat.le_refl _)]
  exact (plain_typeCodeUpTo _).steady data position

/-- Modifiers cannot run out of room, because they do not together with the code behind them. -/
theorem steady_modifiers : Steady modifiers := by
  intro data position
  have whole := (steady_typeCode data position).2
  refine ⟨Guarded.modifiers.le_stop data position, ?_⟩
  rw [typeCode, bind_apply] at whole
  rcases outcome : modifiers data position with ⟨_ | _, stop⟩
  · rwa [outcome] at whole
  · rfl

/-- Without any room a reading runs out on the spot. With some room it first reads a code. -/
theorem widens_typeWithin_zero (room : Nat) : Widens (typeWithin 0) (typeWithin (room + 1)) where
  exceeds data position := by
    have steady := (steady_typeCode data position).2
    rw [typeWithin_succ, bind_apply]
    rcases outcome : typeCode data position with ⟨error | code, middle⟩
    · rw [outcome] at steady
      exact .refused steady
    · have consumed := consumes_typeCode data position code middle outcome
      have passed :=
        (Guarded.typeBody (Guarded.typeWithin room) code).le_stop data middle
      exact .further (Nat.lt_of_lt_of_le consumed passed)
  ordered := (Guarded.typeWithin (room + 1)).le_stop

theorem widens_typeWithin {room wider : Nat} (less : room < wider) :
    Widens (typeWithin room) (typeWithin wider) := by
  induction room generalizing wider with
  | zero =>
      cases wider with
      | zero => cases less
      | succ wider => exact widens_typeWithin_zero wider
  | succ room induction =>
      cases wider with
      | zero => cases less
      | succ wider =>
          have inside := induction (Nat.lt_of_succ_lt_succ less)
          rw [typeWithin_succ, typeWithin_succ]
          refine steady_typeCode.widens.bind fun code => ?_
          rw [← Grammar.typeBody_eq, ← Grammar.typeBody_eq]
          exact congruence_widens.typeBody _ _ inside (widens_parameter inside) code

theorem widens_methodWithin {room wider : Nat} (less : room < wider) :
    Widens (methodWithin room) (methodWithin wider) := by
  have inside := widens_typeWithin less
  rw [methodWithin, methodWithin, ← Grammar.methodOver_eq, ← Grammar.methodOver_eq]
  exact congruence_widens.methodOver _ _ inside (widens_parameter inside)

end Decoder

namespace Descent

open SignatureCode SignatureReader

variable {α β : Type}

/-! ## The count on the way -/

theorem bind_apply (first : Descent α) (next : α → Descent β) (reader : SignatureReader) :
    (first >>= next) reader =
      match first reader with
      | (.ok value, after) => next value after
      | (.error error, after) => (.error error, after) :=
  rfl

/-- Entered with a given count, the reading does what the decoder does, and leaves the count one
higher exactly if the decoder runs out of room. -/
def Follows (nesting : Nat) (decoder : Decoder α) (reading : Descent α) : Prop :=
  ∀ reader : SignatureReader, reader.nesting = nesting →
    reading reader = reader.read fun _ => decoder

/-- A decoder that needs no room does not touch the count. -/
theorem follows_lift {decoder : Decoder α} (steady : decoder.Steady) (nesting : Nat) :
    Follows nesting decoder (liftM decoder : Descent α) := by
  intro reader known
  rcases outcome : decoder reader.cursor.data reader.cursor.position with ⟨result, stop⟩
  have kept := (steady reader.cursor.data reader.cursor.position).2
  rw [outcome] at kept
  have lifted : (liftM decoder : Descent α) reader =
      ((reader.cursor.run decoder).1, ⟨(reader.cursor.run decoder).2, reader.nesting⟩) := rfl
  rw [lifted, Cursor.run_of_eq outcome, read_of_outcome reader (fun _ => decoder) outcome, kept]
  rfl

theorem Follows.bind {nesting : Nat} {decoder : Decoder α} {next : α → Decoder β}
    {reading : Descent α} {nextReading : α → Descent β} (follows : Follows nesting decoder reading)
    (followsNext : ∀ value, Follows nesting (next value) (nextReading value)) :
    Follows nesting (decoder >>= next) (reading >>= nextReading) := by
  intro reader known
  rw [bind_apply, follows reader known]
  rcases outcome : decoder reader.cursor.data reader.cursor.position with ⟨error | value, middle⟩
  · have whole : (decoder >>= next) reader.cursor.data reader.cursor.position =
        (.error error, middle) := Decoder.bind_of_error outcome
    rw [read_of_outcome reader (fun _ => decoder) outcome,
      read_of_outcome reader (fun _ => decoder >>= next) whole]
    rfl
  · rcases rest : next value reader.cursor.data middle with ⟨result, stop⟩
    have whole : (decoder >>= next) reader.cursor.data reader.cursor.position = (result, stop) :=
      (Decoder.bind_of_ok outcome).trans rest
    rw [read_of_outcome reader (fun _ => decoder) outcome,
      read_of_outcome reader (fun _ => decoder >>= next) whole]
    have goesOn := followsNext value ⟨⟨reader.cursor.data, middle⟩, reader.nesting⟩ known
    exact goesOn.trans (read_of_outcome _ (fun _ => next value) rest)

theorem congruence_follows (nesting : Nat) :
    Grammar.Congruence (m := Decoder) (n := Descent)
      fun _ decoder reading => Follows nesting decoder reading where
  plain plain := follows_lift plain.steady nesting
  succeed _ _ _ := rfl
  bind := Follows.bind

theorem follows_parameter {nesting : Nat} {decoder : Decoder TypeSignature}
    {reading : Descent TypeSignature} (follows : Follows nesting decoder reading) :
    Follows nesting (Grammar.parameter decoder) (Grammar.parameter reading) := by
  exact (congruence_follows nesting).parameter (follows_lift Decoder.steady_peek nesting) follows

/-- At the limit there is no room. The count stays up. -/
theorem follows_inside_of_limit {nesting : Nat} (atLimit : depthLimit ≤ nesting + 1)
    (reading : Descent TypeSignature) :
    Follows nesting (Decoder.typeWithin 0) (inside reading) := by
  rintro reader rfl
  rw [inside, if_pos atLimit]
  rfl

/-- Below the limit the count is taken down again, and stays one higher only if it was left so
inside. -/
theorem follows_inside {nesting : Nat} (below : nesting + 1 < depthLimit) {decoder : Decoder α}
    {reading : Descent α} (follows : Follows (nesting + 1) decoder reading) :
    Follows nesting decoder (inside reading) := by
  rintro reader rfl
  rcases outcome : decoder reader.cursor.data reader.cursor.position with ⟨result, stop⟩
  have entered := follows ⟨reader.cursor, reader.nesting + 1⟩ rfl
  rw [read_of_outcome ⟨reader.cursor, reader.nesting + 1⟩ (fun _ => decoder) outcome] at entered
  rw [inside, if_neg (Nat.not_le.mpr below), entered,
    read_of_outcome reader (fun _ => decoder) outcome]
  have left : reader.nesting + 1 + (ranOut result).toNat - 1 =
      reader.nesting + (ranOut result).toNat := by omega
  simp only [left]

theorem follows_typeDown {levels nesting : Nat} (enough : depthLimit ≤ nesting + 1 + levels) :
    Follows nesting (Decoder.typeWithin (depthLimit - 1 - nesting)) (typeDown levels) := by
  induction levels generalizing nesting with
  | zero =>
      have noRoom : depthLimit - 1 - nesting = 0 := by omega
      rw [noRoom]
      exact follows_inside_of_limit enough _
  | succ levels induction =>
      rcases Nat.lt_or_ge (nesting + 1) depthLimit with below | atLimit
      · have oneLess : depthLimit - 1 - nesting = depthLimit - 1 - (nesting + 1) + 1 := by omega
        have follows := @induction (nesting + 1) (by omega)
        have congruence := congruence_follows (nesting + 1)
        rw [oneLess]
        have skipped := follows_lift Decoder.steady_modifiers (nesting + 1)
        refine follows_inside below (skipped.bind fun _ => ?_)
        refine (congruence.plain .byte).bind fun code => ?_
        rw [← Grammar.typeBody_eq]
        exact congruence.typeBody _ _ follows (follows_parameter follows) code
      · have noRoom : depthLimit - 1 - nesting = 0 := by omega
        rw [noRoom]
        exact follows_inside_of_limit atLimit _

theorem follows_type (nesting : Nat) :
    Follows nesting (Decoder.typeWithin (depthLimit - 1 - nesting)) type :=
  follows_typeDown (Nat.le_add_left _ _)

theorem follows_method (nesting : Nat) :
    Follows nesting (Decoder.methodWithin (depthLimit - 1 - nesting)) method := by
  have follows := follows_type nesting
  rw [Decoder.methodWithin, ← Grammar.methodOver_eq]
  exact (congruence_follows nesting).methodOver _ _ follows (follows_parameter follows)

/-- A descent that keeps count comes to what the reader does. -/
theorem type_eq (reader : SignatureReader) : type reader = reader.readType :=
  follows_type reader.nesting reader rfl

theorem method_eq (reader : SignatureReader) : method reader = reader.readMethod :=
  follows_method reader.nesting reader rfl

/-! ## Several readings -/

/-- What answers a request if there is some room. -/
def Request.within : Request → (room : Nat) → Decoder (TypeSignature ⊕ MethodSignature)
  | .type, room => Decoder.typeWithin room >>= fun type => pure (.inl type)
  | .method, room => Decoder.methodWithin room >>= fun method => pure (.inr method)

theorem ask_eq (request : Request) (reader : SignatureReader) :
    ask request reader = reader.read request.within := by
  have congruence := congruence_follows reader.nesting
  cases request with
  | type => exact congruence.map (follows_type reader.nesting) Sum.inl reader rfl
  | method => exact congruence.map (follows_method reader.nesting) Sum.inr reader rfl

theorem nesting_ask (request : Request) (reader : SignatureReader) :
    (ask request reader).2.nesting =
      reader.nesting + (ranOut (ask request reader).1).toNat := by
  rw [ask_eq, read_of_outcome reader request.within rfl]

/-- Each answer that the nesting goes too deep has left the count one higher, and no other has
changed it. -/
theorem nesting_askAll (requests : List Request) (reader : SignatureReader) :
    (askAll requests reader).2.nesting =
      reader.nesting + (askAll requests reader).1.countP ranOut := by
  induction requests generalizing reader with
  | nil => rfl
  | cons request requests induction =>
      have here := nesting_ask request reader
      have later := induction (ask request reader).2
      have counted : ((ask request reader).1 :: (askAll requests (ask request reader).2).1).countP
          ranOut = (askAll requests (ask request reader).2).1.countP ranOut +
            (ranOut (ask request reader).1).toNat := by
        rw [List.countP_cons]
        cases ranOut (ask request reader).1 <;> rfl
      rw [askAll, later, here, counted]
      omega

theorem Request.widens (request : Request) {room wider : Nat} (less : room < wider) :
    (request.within room).Widens (request.within wider) := by
  cases request with
  | type => exact Decoder.congruence_widens.map (Decoder.widens_typeWithin less) Sum.inl
  | method => exact Decoder.congruence_widens.map (Decoder.widens_methodWithin less) Sum.inr

/-- A reader without marks of earlier readings. -/
def fresh (reader : SignatureReader) : SignatureReader :=
  ⟨reader.cursor, 0⟩

/-- A marked reader answers as a fresh one in its place unless it runs out of room. If it does, a
fresh one gets further, or answers something else. -/
theorem ask_eq_fresh_iff (request : Request) (reader : SignatureReader) :
    ((ask request reader).1 = (ask request (fresh reader)).1 ∧
      (ask request reader).2.cursor = (ask request (fresh reader)).2.cursor) ↔
        reader.nesting = 0 ∨ ranOut (ask request reader).1 = false := by
  rcases Nat.eq_zero_or_pos reader.nesting with unmarked | marked
  · have same : fresh reader = reader := by
      rw [fresh, ← unmarked]
    rw [same]
    exact ⟨fun _ => .inl unmarked, fun _ => ⟨rfl, rfl⟩⟩
  · have nonzero : reader.nesting ≠ 0 := Nat.ne_of_gt marked
    have less : reader.room < (fresh reader).room := by
      show depthLimit - 1 - reader.nesting < depthLimit - 1 - 0
      rw [depthLimit]
      omega
    have compared := (request.widens less).exceeds reader.cursor.data reader.cursor.position
    rcases narrow : request.within reader.room reader.cursor.data reader.cursor.position with
      ⟨result, stop⟩
    rcases wide : request.within (fresh reader).room reader.cursor.data reader.cursor.position with
      ⟨freshResult, freshStop⟩
    rw [narrow, wide] at compared
    rw [ask_eq, ask_eq, read_of_outcome reader request.within narrow,
      read_of_outcome (fresh reader) request.within wide, or_iff_right nonzero, ← compared.eq_iff]
    show (result = freshResult ∧ Cursor.mk reader.cursor.data stop =
      Cursor.mk reader.cursor.data freshStop) ↔ _
    simp only [Cursor.mk.injEq, Prod.mk.injEq, true_and]

/-- A descent that counts the types it is inside of comes to what the reader does. What stands in
the count behind some readings is how many of them found the nesting too deep. A reading restores
the count unless it is one of these, and it shows that the count is not zero exactly if it is one.
-/
theorem nesting_restored_iff (data : Bytes) (requests : List Request) (request : Request) :
    let before := askAll requests (start data)
    let reader := before.2
    let here := ask request reader
    let there := ask request (fresh reader)
    (type reader = reader.readType ∧ method reader = reader.readMethod) ∧
      reader.nesting = before.1.countP ranOut ∧
      (here.2.nesting = reader.nesting ↔ ranOut here.1 = false) ∧
      (here.1 = there.1 ∧ here.2.cursor = there.2.cursor ↔
        reader.nesting = 0 ∨ ranOut here.1 = false) := by
  intro before reader here there
  have counted : reader.nesting = before.1.countP ranOut :=
    (nesting_askAll requests (start data)).trans (Nat.zero_add _)
  have after : here.2.nesting = reader.nesting + (ranOut here.1).toNat :=
    nesting_ask request reader
  have restored : here.2.nesting = reader.nesting ↔ ranOut here.1 = false := by
    rw [after]
    cases ranOut here.1 <;> simp
  exact ⟨⟨type_eq reader, method_eq reader⟩, counted, restored, ask_eq_fresh_iff request reader⟩

/-- Vectors of vectors, twice as deep as a reader goes down. -/
def tooDeep : Bytes :=
  ⟨List.replicate 97 0x1D ++ [0x08]⟩

/-- The first reading gives up half way. What it leaves is within the limit, but not any more for
the same reader. -/
theorem not_nesting_restored :
    (¬∀ (data : Bytes) (requests : List Request),
      (askAll requests (start data)).2.nesting = 0) ∧
    ¬∀ (data : Bytes) (requests : List Request) (request : Request),
      let reader := (askAll requests (start data)).2
      (ask request reader).1 = (ask request (fresh reader)).1 :=
  ⟨fun restored => absurd (restored tooDeep [.type]) (by decide +kernel),
    fun alike => absurd (congrArg ranOut (alike tooDeep [.type] .type)) (by decide +kernel)⟩

end Descent

end CilLoader
