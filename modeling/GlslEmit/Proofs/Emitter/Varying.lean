/-
# Values that are passed between stages

A value that one stage passes to a later one is declared twice, in the headers of both stages, and
the two declarations meet at a location.  Locations are handed out in order: the accepted calls are
numbered from zero, whatever is accepted or refused between them.

* `varyingToken?_eq_some_iff`: only scalars and vectors that are no arrays can be passed;
* `Emitter.Passes` says what one accepted call writes, and that it writes nothing else;
* `Emitter.headerEntries` is a header together with the commands that wrote it;
* `Emitter.varying_locations`: the passed values of one header have different locations;
* `Emitter.varyings_match` puts these together.
-/
import GlslEmit.Proofs.Emitter.Rendering

namespace GlslEmit

/-! ## Types that can be passed -/

/-- A shape with a token that is no matrix has one column. -/
theorem NumericType.cols_of_token {n : NumericType} {token : String}
    (htoken : n.token? = some token) (hmatrix : n.isMatrix = false) : n.cols = 1 := by
  have hall : ∀ n ∈ spelled, n.isMatrix = false → n.cols = 1 := by decide +kernel
  exact hall n (mem_spelled htoken) hmatrix

/-- A value can be passed exactly if it is a scalar or a vector with a token, and no array. -/
theorem varyingToken?_eq_some_iff {v : Variable} {token : String} :
    varyingToken? v = some token ↔
      v.arraySize = 1 ∧ ∃ shape, v.type = .numeric shape ∧ shape.cols = 1 ∧
        shape.token? = some token := by
  rw [varyingToken?]
  cases htype : v.type with
  | numeric shape =>
    simp only [ShaderType.numeric.injEq, exists_eq_left']
    constructor
    · intro h
      split at h
      · cases h
      · next hfits =>
        rw [Bool.or_eq_true, not_or, Bool.not_eq_true, Bool.not_eq_true] at hfits
        refine ⟨?_, NumericType.cols_of_token h hfits.1, h⟩
        simpa [Variable.isArray] using hfits.2
    · rintro ⟨harray, hcols, htoken⟩
      rw [if_neg, htoken]
      simp [Variable.isArray, harray, NumericType.isMatrix, hcols]
  | _ => simp

/-- A stage does not run before itself. -/
theorem Stage.ne_of_lt {a b : Stage} (h : a < b) : a ≠ b := by
  rintro rfl
  exact Nat.lt_irrefl _ h

/-- The location of a declaration. -/
def InterfaceDeclaration.location? : InterfaceDeclaration → Option UInt32
  | located value => some value.location
  | attachment _ _ _ => none

namespace Emitter

variable {sizes : TableSizes} {commands history before after : List Command}
variable {g g' : Emitter} {c : Command} {v : Variable} {producer consumer s : Stage}

/-! ## One call -/

/-- The line that declares a passed value in one of its stages. -/
def varyingLine (location : Nat) (direction : String) (stage : Stage) (token : String)
    (v : Variable) : String :=
  "layout(location = " ++ toString location ++ ") " ++ (if v.isFlat then "flat " else "") ++
    direction ++ " " ++ token ++ " _" ++ stage.shortName ++ "_" ++ v.name ++ ";\n\n"

theorem text_varyingValue (location : UInt32) (direction : Direction) (stage : Stage)
    (token : String) (v : Variable) :
    (InterfaceDeclaration.located (varyingValue location direction stage token v)).text =
      varyingLine location.toNat direction.text stage token v := by
  have hname : " _" = " " ++ "_" := by decide
  have hsuffix : arraySuffix 1 = "" := rfl
  have hnumber : toString location = toString location.toNat := rfl
  unfold InterfaceDeclaration.text varyingLine LocatedValue.text
  dsimp only [varyingValue, varyingName]
  rewrite [hsuffix, hnumber, hname, String.append_empty]
  simp only [String.append_assoc, -String.reduceAppend]

/-- The emitter `g'` is `g` with a value passed at a location: an output of the producer and an
input of the consumer, at the end of the two headers.  Nothing else is written. -/
structure Passes (g g' : Emitter) (v : Variable) (producer consumer : Stage) (token : String)
    (location : UInt32) : Prop where
  outHeader : (g'.outputs.get producer).header = (g.outputs.get producer).header ++
    [.located (varyingValue location .output producer token v)]
  inHeader : (g'.outputs.get consumer).header = (g.outputs.get consumer).header ++
    [.located (varyingValue location .input consumer token v)]
  outText : headerText (g'.outputs.get producer).header =
    headerText (g.outputs.get producer).header ++
      varyingLine location.toNat "out" producer token v
  inText : headerText (g'.outputs.get consumer).header =
    headerText (g.outputs.get consumer).header ++
      varyingLine location.toNat "in" consumer token v
  others : ∀ s, s ≠ producer → s ≠ consumer →
    (g'.outputs.get s).header = (g.outputs.get s).header
  preamble : SamePreamble g g'
  bodies : SameBodies g g'
  nextLocation : g'.nextLocation = location + 1

theorem passes_withVarying (order : producer < consumer) {token : String}
    (form : varyingToken? v = some token) :
    Passes g (g.withVarying v producer consumer token) v producer consumer token
      g.nextLocation := by
  have hne := Stage.ne_of_lt order
  have hT : Transition g (.declareVarying v producer consumer)
      (g.withVarying v producer consumer token) := .declareVarying order form
  have hout : ((g.withVarying v producer consumer token).outputs.get producer).header =
      (g.outputs.get producer).header ++
        [.located (varyingValue g.nextLocation .output producer token v)] := by
    rw [header_withVarying, if_pos rfl, if_neg hne.symm, List.append_nil]
  have hin : ((g.withVarying v producer consumer token).outputs.get consumer).header =
      (g.outputs.get consumer).header ++
        [.located (varyingValue g.nextLocation .input consumer token v)] := by
    rw [header_withVarying, if_neg hne, if_pos rfl, List.append_nil]
  refine ⟨hout, hin, ?_, ?_, fun s hp hc => ?_, hT.samePreamble (by rintro ⟨⟩),
    hT.sameBodies (by rintro ⟨⟩), rfl⟩
  · rw [hout, headerText_append, text_varyingValue, Direction.text]
  · rw [hin, headerText_append, text_varyingValue, Direction.text]
  · rw [header_withVarying, if_neg (Ne.symm hp), if_neg (Ne.symm hc), List.append_nil,
      List.append_nil]

/-- A call is accepted exactly if the producer comes first and the value can be passed. -/
theorem isOk_declareVarying_iff (hg : g.WellFormed) :
    (step (.declareVarying v producer consumer) g).result.isOk = true ↔
      producer < consumer ∧ ∃ token, varyingToken? v = some token := by
  constructor
  · intro hok
    have hT := (step_settles (.declareVarying v producer consumer) g hg).of_isOk hok
    generalize (step (.declareVarying v producer consumer) g).state = g' at hT
    cases hT with
    | declareVarying order form => exact ⟨order, _, form⟩
  · rintro ⟨order, token, form⟩
    have hstep : step (.declareVarying v producer consumer) g = _ :=
      Action.bind_accepted (declareVarying_accepted order form) rfl
    rw [hstep]
    rfl

/-- An accepted call answers with the next location, and passes the value there. -/
theorem declareVarying_answer (hg : g.WellFormed) {answer : Reply}
    (h : (step (.declareVarying v producer consumer) g).result = .ok answer) :
    answer = .number g.nextLocation ∧ ∃ token, varyingToken? v = some token ∧
      Passes g (step (.declareVarying v producer consumer) g).state v producer consumer token
        g.nextLocation := by
  obtain ⟨order, token, form⟩ := (isOk_declareVarying_iff hg).mp (by rw [h]; rfl)
  have hstep : step (.declareVarying v producer consumer) g = _ :=
    Action.bind_accepted (declareVarying_accepted order form) rfl
  rw [hstep] at h ⊢
  cases h
  exact ⟨rfl, token, form, passes_withVarying order form⟩

/-! ## Headers with their commands -/

/-- The entries of a header together with the commands that wrote them. -/
def headerEntries (s : Stage) (history : List Command) :
    List (Command × InterfaceDeclaration) :=
  contributions (fun past c => (interfaceAfter s past c).map fun d => (c, d)) history

theorem map_headerEntries (s : Stage) (history : List Command) :
    (headerEntries s history).map Prod.snd = contributions (interfaceAfter s) history := by
  rw [headerEntries, map_contributions]
  congr 1
  funext past c
  rw [List.map_map]
  exact List.map_id _

/-- The entries of a header that declare passed values. -/
def varyingEntries (s : Stage) (history : List Command) :
    List (Command × InterfaceDeclaration) :=
  (headerEntries s history).filter fun e => e.1.isVarying

theorem varyingEntries_snoc (s : Stage) (history : List Command) (c : Command) :
    varyingEntries s (history ++ [c]) = varyingEntries s history ++
      (if c.isVarying then (interfaceAfter s history c).map fun d => (c, d) else []) := by
  rw [varyingEntries, headerEntries, contributions_snoc, List.filter_append]
  congr 1
  cases hc : c.isVarying <;> simp [List.filter_map, Function.comp_def, hc]

/-- An accepted call leaves at most one entry in the header of a stage, at the next location. -/
theorem Transition.varying_entry (h : Transition g (.declareVarying v producer consumer) g')
    (s : Stage) (past : List Command) :
    interfaceAfter s past (.declareVarying v producer consumer) = [] ∨
      ∃ value : LocatedValue, value.location = UInt32.ofNat (past.countP Command.isVarying) ∧
        interfaceAfter s past (.declareVarying v producer consumer) = [.located value] := by
  cases h with
  | @declareVarying _ _ _ token order form =>
    have hne := Stage.ne_of_lt order
    rw [interfaceAfter, form]
    by_cases hp : producer = s
    · have hc : consumer ≠ s := fun heq => hne (hp.trans heq.symm)
      exact Or.inr ⟨_, rfl, by simp [hp, hc]; rfl⟩
    · by_cases hc : consumer = s
      · exact Or.inr ⟨_, rfl, by simp [hp, hc]; rfl⟩
      · exact Or.inl (by simp [hp, hc])

theorem numbered_injective {j k : Nat} (hj : j < UInt32.size) (hk : k < UInt32.size)
    (h : UInt32.ofNat j = UInt32.ofNat k) : j = k := by
  have hnumbers := congrArg UInt32.toNat h
  rwa [UInt32.toNat_ofNat_of_lt' hj, UInt32.toNat_ofNat_of_lt' hk] at hnumbers

/-- The passed values of one header have different locations, as long as the numbers suffice. -/
theorem varying_locations (h : Chain Transition (new sizes) history g)
    (few : history.countP Command.isVarying < UInt32.size) (s : Stage) :
    (∀ e ∈ varyingEntries s history, ∃ j < history.countP Command.isVarying,
      e.2.location? = some (UInt32.ofNat j)) ∧
    (varyingEntries s history).Pairwise fun e e' => e.2.location? ≠ e'.2.location? := by
  induction h with
  | refl => exact ⟨fun e he => (List.not_mem_nil he).elim, List.Pairwise.nil⟩
  | @snoc history c t u _ hT ih =>
    rw [varyingEntries_snoc]
    cases hc : c.isVarying with
    | false =>
      rw [countP_snoc_of_false hc] at few ⊢
      simpa using ih few
    | true =>
      rw [countP_snoc_of_true hc] at few ⊢
      obtain ⟨hbounded, hdistinct⟩ := ih (Nat.lt_of_succ_lt few)
      have hearlier : ∀ e ∈ varyingEntries s history,
          ∃ j < history.countP Command.isVarying + 1, e.2.location? = some (UInt32.ofNat j) :=
        fun e he => (hbounded e he).imp fun j hj => ⟨Nat.lt_succ_of_lt hj.1, hj.2⟩
      obtain ⟨v, producer, consumer, rfl⟩ :
          ∃ v producer consumer, c = .declareVarying v producer consumer := by
        cases c with
        | declareVarying v producer consumer => exact ⟨v, producer, consumer, rfl⟩
        | _ => cases hc
      rw [if_pos rfl]
      rcases hT.varying_entry s history with hnone | ⟨value, hlocation, hentry⟩
      · rw [hnone, List.map_nil, List.append_nil]
        exact ⟨hearlier, hdistinct⟩
      · have hnew : (InterfaceDeclaration.located value).location? =
            some (UInt32.ofNat (history.countP Command.isVarying)) := congrArg some hlocation
        rw [hentry, List.map_singleton]
        refine ⟨fun e he => ?_, List.pairwise_append.mpr
          ⟨hdistinct, List.pairwise_singleton _ _, fun e he e' he' hsame => ?_⟩⟩
        · rcases List.mem_append.mp he with hold | hlast
          · exact hearlier e hold
          · rw [List.mem_singleton.mp hlast]
            exact ⟨_, Nat.lt_succ_self _, hnew⟩
        · -- the numbers of the earlier entries are smaller
          obtain ⟨j, hj, hold⟩ := hbounded e he
          rw [List.mem_singleton.mp he', hold, hnew, Option.some.injEq] at hsame
          exact absurd (numbered_injective (by omega) (by omega) hsame) (Nat.ne_of_lt hj)

/-! ## Passed values match -/

/-- **Passed values match.**  Take a run that passes fewer values than there are locations.  A call
to pass a value is accepted exactly if its producer runs before its consumer, and the value is a
scalar or a vector with a token, and no array.  Whatever was accepted or refused before, it then
answers with the number of values passed so far, and appends an output to the header of the producer
and an input to the header of the consumer, with the same location, the same token and the same
qualifier; no other header, no body and not the preamble is touched.  A refused call changes
nothing.  So the next location is the number of the passed values, and the declarations of the
passed values in one header have different locations. -/
theorem varyings_match (sizes : TableSizes) (commands : List Command)
    (few : (Action.accepted step commands (new sizes)).countP Command.isVarying < UInt32.size) :
    let g := run commands (new sizes)
    let calls := Action.accepted step commands (new sizes)
    (∀ before v producer consumer after,
      commands = before ++ .declareVarying v producer consumer :: after →
      let h := run before (new sizes)
      let count := (Action.accepted step before (new sizes)).countP Command.isVarying
      let outcome := step (.declareVarying v producer consumer) h
      (outcome.result.isOk = true ↔ producer < consumer ∧ v.arraySize = 1 ∧
        ∃ shape token, v.type = .numeric shape ∧ shape.cols = 1 ∧ shape.token? = some token) ∧
      (∀ answer, outcome.result = .ok answer →
        ∃ location token, answer = .number location ∧ location.toNat = count ∧
          v.type.numericToken? = some token ∧
          Passes h outcome.state v producer consumer token location) ∧
      ∀ e, outcome.result = .error e → outcome.state = h) ∧
    g.nextLocation.toNat = calls.countP Command.isVarying ∧
    ∀ s, (g.outputs.get s).header = (headerEntries s calls).map Prod.snd ∧
      (varyingEntries s calls).Pairwise fun e e' => e.2.location? ≠ e'.2.location? := by
  intro g calls
  have hchain : Chain Transition (new sizes) calls g := chain_run (wellFormed_new sizes) commands
  have hheaders := (reflects_run sizes commands).headers
  refine ⟨fun before v producer consumer after hsplit => ?_, ?_, fun s => ⟨?_, ?_⟩⟩
  · intro h count outcome
    have hwell : h.WellFormed := wellFormed_run (wellFormed_new sizes) before
    have hnext : h.nextLocation = UInt32.ofNat count :=
      (reflects_run sizes before).headers.nextLocation
    have hcount : count < UInt32.size := by
      rw [hsplit, Action.accepted_append, List.countP_append] at few
      exact lt_of_le_of_lt (Nat.le_add_right _ _) few
    refine ⟨?_, fun answer hanswer => ?_, fun e he => ?_⟩
    · rw [isOk_declareVarying_iff hwell]
      simp only [varyingToken?_eq_some_iff]
      constructor
      · rintro ⟨order, token, harray, shape, hshape⟩
        exact ⟨order, harray, shape, token, hshape⟩
      · rintro ⟨order, harray, shape, token, hshape⟩
        exact ⟨order, token, harray, shape, hshape⟩
    · obtain ⟨rfl, token, form, hpasses⟩ := declareVarying_answer hwell hanswer
      obtain ⟨-, shape, htype, -, htoken⟩ := varyingToken?_eq_some_iff.mp form
      refine ⟨h.nextLocation, token, rfl, ?_, ?_, hpasses⟩
      · rw [hnext, UInt32.toNat_ofNat_of_lt' hcount]
      · rw [htype]
        exact htoken
    · exact ((step_settles _ h hwell).atomic e he).1
  · rw [hheaders.nextLocation, UInt32.toNat_ofNat_of_lt' few]
  · rw [hheaders.header, map_headerEntries]
  · exact (varying_locations hchain few s).2

/-- Two values are passed, with a matrix that is refused and an active stage between them. -/
theorem varyings_match_second_value :
    let uv : Variable := ⟨"uv", .numeric (.vector .float 2), 1, .varying false⟩
    let frame : Variable := ⟨"frame", .numeric (.matrix 3 3), 1, .varying false⟩
    let layer : Variable := ⟨"layer", .numeric (.scalar .unsigned), 1, .varying true⟩
    let before : List Command := [.declareVarying uv .vertex .fragment,
      .declareVarying frame .vertex .fragment, .beginStage .geometry]
    let commands : List Command := before ++ [.declareVarying layer .vertex .geometry]
    let calls := Action.accepted step commands (new .standard)
    let h := run before (new .standard)
    calls.countP Command.isVarying < UInt32.size ∧
      (step (.declareVarying layer .vertex .geometry) h).result = .ok (.number 1) ∧
      Passes h (step (.declareVarying layer .vertex .geometry) h).state layer .vertex .geometry
        "uint" 1 ∧
      (run commands (new .standard)).nextLocation.toNat = 2 ∧
      (varyingEntries .vertex calls).Pairwise fun e e' => e.2.location? ≠ e'.2.location? := by
  intro uv frame layer before commands calls h
  have hcount : calls.countP Command.isVarying = 2 := by
    unfold calls commands before uv frame layer
    rfl
  have hfew : calls.countP Command.isVarying < UInt32.size := by
    rw [hcount]
    decide
  obtain ⟨hcalls, hnext, hheaders⟩ := varyings_match .standard commands hfew
  obtain ⟨-, hanswer, -⟩ := hcalls before layer .vertex .geometry [] rfl
  have hok : (step (.declareVarying layer .vertex .geometry) h).result = .ok (.number 1) := by
    unfold h before uv frame layer
    rfl
  obtain ⟨location, token, hnumber, -, htoken, hpasses⟩ := hanswer _ hok
  obtain rfl : 1 = location := Reply.number.inj hnumber
  obtain rfl : "uint" = token := Option.some.inj htoken
  exact ⟨hfew, hok, hpasses, hnext.trans hcount, (hheaders .vertex).2⟩

end Emitter

end GlslEmit
