import ModelSchemas.CommandLine.Options

/-!
# Reading options

What it takes for a command line to be read: which arguments look at the one after them, and that no
argument made no sense. An option without a value can then be put anywhere into a command line that
is still read afterwards, and changes nothing but what it sets itself.
-/

namespace ModelSchemas

namespace CommandLine

/-! ## Arguments and the ones after them -/

/-- What is asked for takes the next argument as a value, or does not depend on it. -/
def Asks (ask : Option Argument → Except Misuse Effect) (next : Option Argument) (r : Effect) :
    Prop :=
  (r.usesNext = true ∧ ∃ value, next = some (.plain value)) ∨
    (r.usesNext = false ∧ ∀ other, ask other = .ok r)

theorem asks_ofBare {flag : Flag} {next : Option Argument} {r : Effect}
    (h : ofBare flag next = .ok r) : Asks (ofBare flag) next r := by
  unfold ofBare at h
  split at h
  · rename_i hvalue
    cases h
    refine .inr ⟨rfl, fun other => ?_⟩
    unfold ofBare
    rw [hvalue]
  · cases h
    exact .inl ⟨rfl, _, rfl⟩
  · cases h

/-- A letter in front changes neither. -/
theorem asks_after {ask : Option Argument → Except Misuse Effect} {flag : Flag}
    {next : Option Argument} {r : Effect} (h : (ask next).map (Effect.after flag) = .ok r)
    (hask : ∀ {inner}, ask next = .ok inner → Asks ask next inner) :
    Asks (fun other => (ask other).map (Effect.after flag)) next r := by
  cases hnext : ask next with
  | error misuse =>
    rw [hnext] at h
    cases h
  | ok inner =>
    rw [hnext] at h
    cases h
    rcases hask hnext with hplain | ⟨huses, hother⟩
    · exact .inl hplain
    · exact .inr ⟨huses, fun other => congrArg (Except.map (Effect.after flag)) (hother other)⟩

theorem asks_ofAttached {next : Option Argument} {flag : Flag} {separated : Bool} {t : Text}
    {r : Effect} (h : ofAttached next flag separated t = .ok r) :
    Asks (fun other => ofAttached other flag separated t) next r := by
  fun_induction ofAttached next flag separated t generalizing r with
  | case1 flag separated hvalue =>
    cases h
    exact .inr ⟨rfl, fun other => by unfold ofAttached; simp only [hvalue, if_true]⟩
  | case2 => cases h
  | case3 flag separated c rest hvalue =>
    cases h
    exact .inr ⟨rfl, fun other => by unfold ofAttached; simp only [hvalue, if_true]⟩
  | case4 => cases h
  | case5 flag separated c rest hvalue hmore hletter =>
    cases h
    refine .inr ⟨rfl, fun other => ?_⟩
    unfold ofAttached
    simp only [hvalue, hmore, hletter, if_false, Bool.false_eq_true]
  | case6 flag separated c hvalue hmore letter hletter =>
    have heq : ∀ other, ofAttached other flag separated [c] =
        (ofBare letter other).map (Effect.after flag) := by
      intro other
      rw [ofAttached.eq_def]
      simp only [hvalue, hmore, hletter, if_false, Bool.false_eq_true]
    simp only [heq]
    exact asks_after h asks_ofBare
  | case7 flag separated c hvalue hmore letter value hletter ih =>
    have heq : ∀ other, ofAttached other flag separated (c :: '=' :: value) =
        (ofAttached other letter true value).map (Effect.after flag) := by
      intro other
      rw [ofAttached.eq_def]
      simp only [hvalue, hmore, hletter, if_false, Bool.false_eq_true]
    simp only [heq]
    exact asks_after h ih
  | case8 flag separated c hvalue hmore letter d more hd hletter ih =>
    have heq : ∀ other, ofAttached other flag separated (c :: d :: more) =
        (ofAttached other letter false (d :: more)).map (Effect.after flag) := by
      intro other
      rw [ofAttached.eq_def]
      simp only [hvalue, hmore, hletter, if_false, Bool.false_eq_true]
    simp only [heq]
    exact asks_after h ih

theorem Argument.asks_effect {argument : Argument} {next : Option Argument} {r : Effect}
    (h : argument.effect next = .ok r) : Asks argument.effect next r := by
  cases argument with
  | plain text =>
    cases h
    exact .inr ⟨rfl, fun _ => rfl⟩
  | unknown =>
    cases h
    exact .inr ⟨rfl, fun _ => rfl⟩
  | named flag value =>
    cases value with
    | none => exact asks_ofBare h
    | some value =>
      dsimp only [effect] at h
      split at h
      · rename_i hvalue
        cases h
        exact .inr ⟨rfl, fun _ => if_pos hvalue⟩
      · cases h
  | lettered flag separated attached =>
    cases attached with
    | none => exact asks_ofBare h
    | some attached => exact asks_ofAttached h

/-! ## Arguments that were read -/

/-- One argument that is no value: what it asks for has taken effect. -/
theorem readAll_cons_eq_ok {o p : Options} {unrecognized : Bool} {argument : Argument}
    {rest : List Argument} (h : readAll o false unrecognized (argument :: rest) = .ok p) :
    ∃ r q, argument.effect rest.head? = .ok r ∧ o.applyAll r.settled = .ok q ∧
      readAll q r.usesNext (unrecognized || r.unrecognized) rest = .ok p := by
  rw [readAll, if_neg Bool.false_ne_true] at h
  cases heffect : argument.effect rest.head? with
  | error misuse =>
    rw [heffect] at h
    cases h
  | ok r =>
    rw [heffect] at h
    cases happly : o.applyAll r.settled with
    | error invocation =>
      simp only [happly] at h
      cases h
    | ok q =>
      simp only [happly] at h
      exact ⟨r, q, rfl, happly, h⟩

/-- The argument that is to be skipped, if there is one, is a plain one. -/
def SkipsPlain (skip : Bool) (arguments : List Argument) : Prop :=
  skip = true → ∃ value, arguments.head? = some (.plain value)

theorem SkipsPlain.of_effect {argument : Argument} {rest : List Argument} {r : Effect}
    (h : argument.effect rest.head? = .ok r) : SkipsPlain r.usesNext rest := by
  intro huses
  rcases Argument.asks_effect h with ⟨-, hplain⟩ | ⟨hnot, -⟩
  · exact hplain
  · rw [hnot] at huses
    cases huses

/-- Nothing in a command line that was read made no sense. -/
theorem unknown_not_mem_of_readAll {arguments : List Argument} {o p : Options}
    {skip unrecognized : Bool} (hskip : SkipsPlain skip arguments)
    (h : readAll o skip unrecognized arguments = .ok p) :
    unrecognized = false ∧ .unknown ∉ arguments := by
  -- the flag is never taken back, and at the end it has to be off
  induction arguments generalizing o skip unrecognized with
  | nil =>
    rw [readAll] at h
    split at h
    · cases h
    · rename_i hnot
      exact ⟨by simpa using hnot, List.not_mem_nil⟩
  | cons argument rest ih =>
    cases skip with
    | true =>
      obtain ⟨value, hvalue⟩ := hskip rfl
      cases hvalue
      rw [readAll, if_pos rfl] at h
      obtain ⟨hnone, hrest⟩ := ih (fun hfalse => absurd hfalse Bool.false_ne_true) h
      exact ⟨hnone, by simpa using hrest⟩
    | false =>
      obtain ⟨r, q, heffect, -, hread⟩ := readAll_cons_eq_ok h
      obtain ⟨hnone, hrest⟩ := ih (.of_effect heffect) hread
      obtain ⟨hbefore, hhere⟩ := Bool.or_eq_false_iff.mp hnone
      refine ⟨hbefore, fun hmem => ?_⟩
      rcases List.mem_cons.mp hmem with rfl | hmem
      · cases heffect
        cases hhere
      · exact hrest hmem

/-! ## One more option -/

/-- The options are the same but for whether the document goes to the standard output. -/
def SameButStdout (o o' : Options) : Prop := ∃ on, o' = { o with stdout := on }

theorem SameButStdout.apply {o o' p p' : Options} (h : SameButStdout o o') {flag : Flag}
    {value : String} (hp : o.apply flag value = .ok p) (hp' : o'.apply flag value = .ok p') :
    SameButStdout p p' := by
  obtain ⟨on, rfl⟩ := h
  cases flag <;> cases hp <;> cases hp' <;> exact ⟨_, rfl⟩

theorem SameButStdout.applyAll {settled : List (Flag × String)} {o o' p p' : Options}
    (h : SameButStdout o o') (hp : o.applyAll settled = .ok p)
    (hp' : o'.applyAll settled = .ok p') : SameButStdout p p' := by
  induction settled generalizing o o' with
  | nil =>
    cases hp
    cases hp'
    exact h
  | cons entry rest ih =>
    unfold Options.applyAll at hp hp'
    rw [List.foldlM_cons] at hp hp'
    cases hq : o.apply entry.1 entry.2 with
    | error invocation =>
      rw [hq] at hp
      cases hp
    | ok q =>
      cases hq' : o'.apply entry.1 entry.2 with
      | error invocation =>
        rw [hq'] at hp'
        cases hp'
      | ok q' =>
        rw [hq] at hp
        rw [hq'] at hp'
        exact ih (h.apply hq hq') hp hp'

/-- The second list has the option for the standard output in more places, and nothing else. -/
inductive AddsOption : List Argument → List Argument → Prop where
  | nil : AddsOption [] []
  | keep (argument : Argument) {rest rest' : List Argument} (h : AddsOption rest rest') :
    AddsOption (argument :: rest) (argument :: rest')
  | insert {rest rest' : List Argument} (h : AddsOption rest rest') :
    AddsOption rest (.named .stdout none :: rest')

theorem AddsOption.head?_eq {rest rest' : List Argument} (h : AddsOption rest rest') :
    rest'.head? = rest.head? ∨ rest'.head? = some (.named .stdout none) := by
  cases h with
  | nil => exact .inl rfl
  | keep argument h => exact .inl rfl
  | insert h => exact .inr rfl

/-- An argument asks for the same, as the option is no value for it. -/
theorem AddsOption.effect_eq {rest rest' : List Argument} (h : AddsOption rest rest')
    {argument : Argument} {r : Effect} (hr : argument.effect rest'.head? = .ok r) :
    argument.effect rest.head? = .ok r := by
  rcases h.head?_eq with hsame | hoption
  · rw [← hsame]
    exact hr
  · rcases Argument.asks_effect hr with ⟨-, value, hplain⟩ | ⟨-, hany⟩
    · rw [hoption] at hplain
      cases hplain
    · exact hany _

/-- Where both lists are read, they come to the same but for that option. -/
theorem AddsOption.sameButStdout {arguments arguments' : List Argument}
    (h : AddsOption arguments arguments') {o o' p p' : Options} {skip before before' : Bool}
    (hskip : SkipsPlain skip arguments') (hsame : SameButStdout o o')
    (hp : readAll o skip before arguments = .ok p)
    (hp' : readAll o' skip before' arguments' = .ok p') : SameButStdout p p' := by
  induction h generalizing o o' skip before before' with
  | nil =>
    rw [readAll] at hp hp'
    split at hp
    · cases hp
    · split at hp'
      · cases hp'
      · cases hp
        cases hp'
        exact hsame
  | @keep argument rest rest' h ih =>
    cases skip with
    | true =>
      rw [readAll, if_pos rfl] at hp hp'
      exact ih (fun hfalse => absurd hfalse Bool.false_ne_true) hsame hp hp'
    | false =>
      obtain ⟨r, q, heffect, happly, hread⟩ := readAll_cons_eq_ok hp
      obtain ⟨r', q', heffect', happly', hread'⟩ := readAll_cons_eq_ok hp'
      rw [h.effect_eq heffect'] at heffect
      cases heffect
      exact ih (.of_effect heffect') (hsame.applyAll happly happly') hread hread'
  | @insert rest rest' h ih =>
    cases skip with
    | true =>
      -- the option would be the value of the one before it, but only plain arguments are values
      obtain ⟨value, hvalue⟩ := hskip rfl
      cases hvalue
    | false =>
      obtain ⟨r', q', heffect', happly', hread'⟩ := readAll_cons_eq_ok hp'
      cases heffect'
      cases happly'
      obtain ⟨on, rfl⟩ := hsame
      exact ih (fun hfalse => absurd hfalse Bool.false_ne_true) ⟨true, rfl⟩ hp hread'

/-! ## Texts -/

/-- The second command line is the first one with the option for the standard output in more
places. -/
inductive AddsStdout : List String → List String → Prop where
  | nil : AddsStdout [] []
  | keep (text : String) {rest rest' : List String} (h : AddsStdout rest rest') :
    AddsStdout (text :: rest) (text :: rest')
  | insert {text : String} (option : Argument.ofText text = .ok (.named .stdout none))
    {rest rest' : List String} (h : AddsStdout rest rest') : AddsStdout rest (text :: rest')

/-- Before two dashes that stand alone, each argument is settled on its own. -/
theorem Argument.ofTexts_cons_eq_ok {text : String} {texts : List String}
    {arguments : List Argument} (h : Argument.ofTexts (text :: texts) = .ok arguments)
    (hknown : .unknown ∉ arguments) :
    ∃ argument rest, Argument.ofText text = .ok argument ∧ Argument.ofTexts texts = .ok rest ∧
      arguments = argument :: rest := by
  rw [ofTexts] at h
  by_cases hdashes : text = "--"
  · rw [if_pos hdashes] at h
    cases h
    exact absurd List.mem_cons_self hknown
  · rw [if_neg hdashes] at h
    cases hfirst : Argument.ofText text with
    | error misuse =>
      rw [hfirst] at h
      cases h
    | ok argument =>
      cases hrest : Argument.ofTexts texts with
      | error misuse =>
        rw [hfirst, hrest] at h
        cases h
      | ok rest =>
        rw [hfirst, hrest] at h
        cases h
        exact ⟨argument, rest, rfl, rfl, rfl⟩

theorem AddsStdout.addsOption {texts texts' : List String} (h : AddsStdout texts texts')
    {arguments arguments' : List Argument} (ha : Argument.ofTexts texts = .ok arguments)
    (ha' : Argument.ofTexts texts' = .ok arguments') (hknown : .unknown ∉ arguments)
    (hknown' : .unknown ∉ arguments') : AddsOption arguments arguments' := by
  induction h generalizing arguments arguments' with
  | nil =>
    cases ha
    cases ha'
    exact .nil
  | keep text h ih =>
    obtain ⟨argument, rest, hfirst, hrest, rfl⟩ := Argument.ofTexts_cons_eq_ok ha hknown
    obtain ⟨argument', rest', hfirst', hrest', rfl⟩ := Argument.ofTexts_cons_eq_ok ha' hknown'
    rw [hfirst] at hfirst'
    cases hfirst'
    exact .keep argument (ih hrest hrest' (fun hmem => hknown (.tail _ hmem))
      (fun hmem => hknown' (.tail _ hmem)))
  | insert option h ih =>
    obtain ⟨argument', rest', hfirst', hrest', rfl⟩ := Argument.ofTexts_cons_eq_ok ha' hknown'
    rw [option] at hfirst'
    cases hfirst'
    exact .insert (ih ha hrest' hknown fun hmem => hknown' (.tail _ hmem))

/-- Options that end the command line do not ask for a run. -/
theorem Options.applyAll_ne_run {settled : List (Flag × String)} {o p : Options} :
    o.applyAll settled ≠ .error (.run p) := by
  induction settled generalizing o with
  | nil =>
    intro h
    cases h
  | cons entry rest ih =>
    unfold applyAll
    rw [List.foldlM_cons]
    cases hq : o.apply entry.1 entry.2 with
    | ok q => exact ih
    | error invocation =>
      intro h
      cases h
      unfold apply at hq
      split at hq <;> cases hq

theorem readAll_ne_run {arguments : List Argument} {o p : Options} {skip unrecognized : Bool} :
    readAll o skip unrecognized arguments ≠ .error (.run p) := by
  induction arguments generalizing o skip unrecognized with
  | nil =>
    rw [readAll]
    split <;> intro h <;> cases h
  | cons argument rest ih =>
    rw [readAll]
    split
    · exact ih
    · split
      · intro h
        cases h
      · rename_i r _
        cases happly : o.applyAll r.settled with
        | error invocation =>
          intro h
          cases h
          exact Options.applyAll_ne_run happly
        | ok q => exact ih

theorem Invocation.ofArguments_eq_run {texts : List String} {o : Options}
    (h : Invocation.ofArguments texts = .run o) :
    ∃ arguments, Argument.ofTexts texts = .ok arguments ∧
      readAll .default false false arguments = .ok o := by
  unfold ofArguments at h
  split at h
  · cases h
  · rename_i arguments harguments
    split at h
    · rename_i options hread
      cases h
      exact ⟨arguments, harguments, hread⟩
    · rename_i invocation hread
      subst h
      exact absurd hread readAll_ne_run

/-- **One more option.** If a command line is read before and after the option for the standard
output was put into it, it asks for the same but for that. -/
theorem AddsStdout.sameButStdout {texts texts' : List String} (h : AddsStdout texts texts')
    {o o' : Options} (ho : Invocation.ofArguments texts = .run o)
    (ho' : Invocation.ofArguments texts' = .run o') : SameButStdout o o' := by
  obtain ⟨arguments, ha, hread⟩ := Invocation.ofArguments_eq_run ho
  obtain ⟨arguments', ha', hread'⟩ := Invocation.ofArguments_eq_run ho'
  have hno (arguments : List Argument) : SkipsPlain false arguments :=
    fun hfalse => absurd hfalse Bool.false_ne_true
  obtain ⟨-, hknown⟩ := unknown_not_mem_of_readAll (hno _) hread
  obtain ⟨-, hknown'⟩ := unknown_not_mem_of_readAll (hno _) hread'
  exact (h.addsOption ha ha' hknown hknown').sameButStdout (hno _) ⟨false, rfl⟩ hread hread'

/-! ## A model file and a directory -/

/-- A text that does not start with a dash is no option. -/
theorem Argument.ofText_eq_plain {text : String} (h : text.toList.head? ≠ some '-') :
    Argument.ofText text = .ok (.plain text) := by
  unfold Argument.ofText
  split
  · rename_i hlist
    exact absurd (congrArg List.head? hlist) h
  · rename_i hlist
    exact absurd (congrArg List.head? hlist) h
  · rename_i hlist
    exact absurd (congrArg List.head? hlist) h
  · rfl

theorem Argument.ofTexts_cons_ok {text : String} {texts : List String} {argument : Argument}
    {arguments : List Argument} (hdashes : text ≠ "--") (h : Argument.ofText text = .ok argument)
    (hrest : Argument.ofTexts texts = .ok arguments) :
    Argument.ofTexts (text :: texts) = .ok (argument :: arguments) := by
  rw [ofTexts, if_neg hdashes, h, hrest]
  rfl

/-- A command line with a model file and an output directory. -/
theorem ofArguments_toDirectory {directory : String} (h : directory.toList.head? ≠ some '-') :
    Invocation.ofArguments ["-m", "m.json", "-o", directory] =
        .run { Options.default with model := some "m.json", output := some directory } ∧
      Invocation.ofArguments ["-m", "m.json", "-o", directory, "--stdout"] =
        .run { Options.default with
          model := some "m.json", output := some directory, stdout := true } := by
  have hdashes : directory ≠ "--" := fun heq => h (heq ▸ rfl)
  have htexts {rest : List String} {more : List Argument}
      (hrest : Argument.ofTexts rest = .ok more) :
      Argument.ofTexts ("-m" :: "m.json" :: "-o" :: directory :: rest) =
        .ok (.lettered .model false none :: .plain "m.json" :: .lettered .output false none ::
          .plain directory :: more) :=
    Argument.ofTexts_cons_ok (by decide) rfl <| Argument.ofTexts_cons_ok (by decide) rfl <|
      Argument.ofTexts_cons_ok (by decide) rfl <|
        Argument.ofTexts_cons_ok hdashes (Argument.ofText_eq_plain h) hrest
  constructor
  · rw [Invocation.ofArguments, htexts rfl]
    rfl
  · rw [Invocation.ofArguments, htexts (Argument.ofTexts_cons_ok (by decide) rfl rfl)]
    rfl

end CommandLine

end ModelSchemas
