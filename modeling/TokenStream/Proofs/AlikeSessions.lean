import Mathlib.Data.List.Basic
import TokenStream.Proofs.Deeds

/-!
# Sessions that are alike

Two sessions are followed side by side in which the same work is done, while settings may differ.
All that is kept in them is alike in number and in kind: the same names, and as many scanners under
each.  One scanner is watched, the one that the deed with a given number has made, and it is the
same in both, together with the streams that read it.

## Main definitions

* `ScannersAlike`, `StreamsAlike` — what is kept under a name agrees on the scanner in question.
* `Session.Alike` — two states agree on it.

## Main results

* `Session.Alike.positions` — it has got equally far.
* `Session.Alike.perform` — **the same work keeps two states alike**, and a stream of the scanner
  answers in both the same.
-/

namespace TokenStream

/-! ### Names in a registry -/

namespace Registry

variable {α : Type} {name : String}

/-- The names in a registry. -/
def names (registry : Registry α) : List String := registry.entries.map Prod.fst

theorem map_fst_putIn (name : String) (thing : α) (entries : List (String × α)) :
    (putIn name thing entries).map Prod.fst =
      if name ∈ entries.map Prod.fst then entries.map Prod.fst
      else entries.map Prod.fst ++ [name] := by
  induction entries with
  | nil => rfl
  | cons entry rest ih =>
    obtain ⟨other, held⟩ := entry
    by_cases hname : other = name
    · simp [putIn, hname]
    · have hmem : name ∈ other :: rest.map Prod.fst ↔ name ∈ rest.map Prod.fst := by
        simp [Ne.symm hname]
      rw [putIn, if_neg hname, List.map_cons, List.map_cons, ih]
      by_cases hrest : name ∈ rest.map Prod.fst
      · rw [if_pos hrest, if_pos (hmem.mpr hrest)]
      · rw [if_neg hrest, if_neg (hmem.not.mpr hrest), List.cons_append]

/-- A name is put into a registry at the end, unless it is there. -/
theorem names_put (registry : Registry α) (name : String) (thing : α) :
    (registry.put name thing).names =
      if name ∈ registry.names then registry.names else registry.names ++ [name] :=
  map_fst_putIn name thing registry.entries

theorem nodup_names_put {registry : Registry α} (h : registry.names.Nodup) (name : String)
    (thing : α) : (registry.put name thing).names.Nodup := by
  rw [names_put]
  split
  · exact h
  · next hname =>
    refine List.nodup_append.mpr ⟨h, List.pairwise_singleton _ _, ?_⟩
    rintro other hother _ hlast rfl
    obtain rfl := List.mem_singleton.mp hlast
    exact hname hother

/-- Without a name twice, the entries are what is found under the names. -/
theorem filterMap_names {β : Type} {registry : Registry α} (h : registry.names.Nodup)
    (show? : String → α → Option β) :
    registry.names.filterMap (fun name => (registry.find? name).bind (show? name)) =
      registry.entries.filterMap fun entry => show? entry.1 entry.2 := by
  obtain ⟨entries⟩ := registry
  simp only [names, find?] at h ⊢
  induction entries with
  | nil => rfl
  | cons entry rest ih =>
    obtain ⟨other, held⟩ := entry
    rw [List.map_cons, List.nodup_cons] at h
    have hrest : ∀ name ∈ rest.map Prod.fst,
        (findIn? name ((other, held) :: rest)).bind (show? name) =
          (findIn? name rest).bind (show? name) := by
      intro name hname
      have hne : other ≠ name := fun heq => h.1 (heq ▸ hname)
      rw [findIn?, if_neg hne]
    rw [List.map_cons, List.filterMap_cons, List.filterMap_cons, List.filterMap_congr hrest,
      ih h.2, findIn?, if_pos rfl, Option.bind_some]

end Registry

/-! ### Scanners alike -/

/-- Two rows of scanners under a name agree on the one that the deed with a number has made. -/
structure ScannersAlike (number : Nat) (makers : List Nat) (scanners others : List Scanner) :
    Prop where
  /-- Each scanner has been made by a deed. -/
  length_eq : scanners.length = makers.length
  /-- Each scanner of the other row has been made by the same deed. -/
  length_eq' : others.length = makers.length
  /-- The scanner in question is the same. -/
  same : ∀ index : Nat, makers[index]? = some number → scanners[index]? = others[index]?

namespace ScannersAlike

variable {number maker index : Nat} {makers : List Nat} {scanners others : List Scanner}
  {scanner other : Scanner}

theorem nil (number : Nat) : ScannersAlike number [] [] [] := ⟨rfl, rfl, by simp⟩

theorem concat (h : ScannersAlike number makers scanners others)
    (hnew : maker = number → scanner = other) :
    ScannersAlike number (makers ++ [maker]) (scanners ++ [scanner]) (others ++ [other]) := by
  refine ⟨by simp [h.length_eq], by simp [h.length_eq'], fun index hindex => ?_⟩
  by_cases hlt : index < makers.length
  · rw [List.getElem?_append_left hlt] at hindex
    rw [List.getElem?_append_left (h.length_eq ▸ hlt),
      List.getElem?_append_left (h.length_eq' ▸ hlt)]
    exact h.same index hindex
  · have hlast : index = makers.length := by
      have hwithin := (List.getElem?_eq_some_iff.mp hindex).1
      simp only [List.length_append, List.length_singleton] at hwithin
      omega
    subst hlast
    rw [List.getElem?_concat_length, Option.some.injEq] at hindex
    obtain rfl := hnew hindex
    rw [← h.length_eq, List.getElem?_concat_length, h.length_eq, ← h.length_eq',
      List.getElem?_concat_length]

theorem set (h : ScannersAlike number makers scanners others) (hmaker : makers[index]? = some maker)
    (hnew : maker = number → scanner = other) :
    ScannersAlike number makers (scanners.set index scanner) (others.set index other) := by
  refine ⟨by simp [h.length_eq], by simp [h.length_eq'], fun place hplace => ?_⟩
  by_cases heq : index = place
  · subst heq
    obtain rfl := hnew (Option.some.inj (hmaker.symm.trans hplace))
    have hlt := (List.getElem?_eq_some_iff.mp hmaker).1
    rw [List.getElem?_set_self (h.length_eq ▸ hlt), List.getElem?_set_self (h.length_eq' ▸ hlt)]
  · rw [List.getElem?_set_ne heq, List.getElem?_set_ne heq]
    exact h.same place hplace

/-- The scanners that a deed has made are in the same place of both rows. -/
theorem exists_of_maker (h : ScannersAlike number makers scanners others)
    (hmaker : makers[index]? = some maker) :
    ∃ scanner other, scanners[index]? = some scanner ∧ others[index]? = some other ∧
      (maker = number → scanner = other) := by
  have hlt := (List.getElem?_eq_some_iff.mp hmaker).1
  have hscanner := List.getElem?_eq_getElem (h.length_eq ▸ hlt)
  have hother := List.getElem?_eq_getElem (h.length_eq' ▸ hlt)
  refine ⟨_, _, hscanner, hother, ?_⟩
  rintro rfl
  exact Option.some.inj (hscanner.symm.trans ((h.same index hmaker).trans hother))

theorem getLast? (h : ScannersAlike number makers scanners others)
    (hlast : makers.getLast? = some number) : scanners.getLast? = others.getLast? := by
  rw [List.getLast?_eq_getElem?] at hlast ⊢
  rw [List.getLast?_eq_getElem?, h.length_eq, h.length_eq']
  exact h.same _ hlast

end ScannersAlike

/-! ### Streams alike -/

/-- Two streams under a name, both of the scanner that a deed has made, agree if it is the deed with
the number in question. -/
inductive StreamsAlike (number : Nat) (maker? : Option Nat) (makers : String → List Nat) :
    Option Stream → Option Stream → Prop
  /-- There is no stream. -/
  | none : StreamsAlike number maker? makers none none
  /-- Both streams read scanners of their own. -/
  | own {scanner other : Scanner} {phase phase' : Phase}
      (same : maker? = some number → scanner = other ∧ phase = phase') :
      StreamsAlike number maker? makers (some ⟨.own scanner, phase⟩) (some ⟨.own other, phase'⟩)
  /-- Both streams read the same scanner under a name. -/
  | named {made : String} {index maker : Nat} {phase phase' : Phase} (makes : maker? = some maker)
      (made_by : (makers made)[index]? = some maker) (same : maker = number → phase = phase') :
      StreamsAlike number maker? makers (some ⟨.named made index, phase⟩)
        (some ⟨.named made index, phase'⟩)

/-- Scanners that are made later change nothing for streams that are there. -/
theorem StreamsAlike.mono {number : Nat} {maker? : Option Nat} {makers later : String → List Nat}
    {stream other : Option Stream} (h : StreamsAlike number maker? makers stream other)
    (hlater : ∀ made, makers made <+: later made) :
    StreamsAlike number maker? later stream other := by
  cases h with
  | none => exact .none
  | own same => exact .own same
  | @named made index maker _ _ makes made_by same =>
    obtain ⟨more, hmore⟩ := hlater made
    have hlt := (List.getElem?_eq_some_iff.mp made_by).1
    exact .named makes (by rw [← hmore, List.getElem?_append_left hlt, made_by]) same

theorem StreamsAlike.withPhase {number : Nat} {maker? : Option Nat} {makers : String → List Nat}
    {stream stream' : Stream} (h : StreamsAlike number maker? makers (some stream) (some stream'))
    (phase : Phase) :
    StreamsAlike number maker? makers (some { stream with phase })
      (some { stream' with phase }) := by
  cases h with
  | own same => exact .own fun hmaker => ⟨(same hmaker).1, rfl⟩
  | named makes made_by => exact .named makes made_by fun _ => rfl

/-! ### States alike -/

/-- After some work, two states agree on the scanner that the deed with a number has made, and have
as many other scanners and streams, of the same kind. -/
structure Session.Alike (session : Session) (number : Nat) (past : List Action)
    (other : Session) : Prop where
  /-- The names of scanners are the same. -/
  names : other.scanners.names = session.scanners.names
  /-- No name is kept twice. -/
  distinct : session.scanners.names.Nodup
  /-- The scanners under a name are alike. -/
  scanners : ∀ name, ScannersAlike number (makers name past) (session.madeUnder name)
    (other.madeUnder name)
  /-- The streams under a name are alike. -/
  streams : ∀ name, StreamsAlike number (streamMaker? name past) (makers · past)
    (session.streams.find? name) (other.streams.find? name)

namespace Session

variable {session other : Session} {number : Nat} {past later : List Action} {name : String}

theorem alike_start (number : Nat) : start.Alike number [] start where
  names := rfl
  distinct := List.Pairwise.nil
  scanners _ := .nil number
  streams _ := .none

/-- Settings have no part in this. -/
theorem Alike.of_sameWork {after after' : Session} (h : session.Alike number past other)
    (hsame : session.SameWork after) (hsame' : other.SameWork after') :
    after.Alike number past after' where
  names := by rw [hsame.scanners, hsame'.scanners, h.names]
  distinct := by rw [hsame.scanners]; exact h.distinct
  scanners name := by
    simp only [madeUnder, hsame.scanners, hsame'.scanners]
    exact h.scanners name
  streams name := by
    rw [hsame.streams, hsame'.streams]
    exact h.streams name

/-- Work that makes neither scanners nor streams has no part in this either. -/
theorem Alike.of_past (h : session.Alike number past other)
    (hmakers : ∀ name, makers name later = makers name past)
    (hstreams : ∀ name, streamMaker? name later = streamMaker? name past) :
    session.Alike number later other where
  names := h.names
  distinct := h.distinct
  scanners name := by rw [hmakers]; exact h.scanners name
  streams name := by rw [hstreams, funext hmakers]; exact h.streams name

/-- The positions that are shown are those of the last scanners under the names. -/
theorem positions_eq_filterMap (h : session.scanners.names.Nodup) :
    session.positions = session.scanners.names.filterMap fun name =>
      (session.madeUnder name).getLast?.map fun scanner => (name, scanner.position) := by
  rw [positions, ← Registry.filterMap_names h fun name (scanners : List Scanner) =>
    scanners.getLast?.map fun scanner => (name, scanner.position)]
  congr 1
  funext name
  unfold madeUnder
  cases session.scanners.find? name <;> rfl

/-- In states that are alike, the scanner in question has got equally far. -/
theorem Alike.positions (h : session.Alike number past other) :
    (session.positions.filter fun shown => (makers shown.1 past).getLast? = some number) =
      other.positions.filter fun shown => (makers shown.1 past).getLast? = some number := by
  rw [positions_eq_filterMap h.distinct, positions_eq_filterMap (h.names ▸ h.distinct), h.names,
    List.filter_filterMap, List.filter_filterMap]
  congr 1
  funext name
  by_cases hlast : (makers name past).getLast? = some number
  · rw [(h.scanners name).getLast? hlast]
  · have hout : ∀ scanner? : Option Scanner,
        ((scanner?.map fun scanner => (name, scanner.position)).filter fun shown =>
          (makers shown.1 past).getLast? = some number) = none := by
      intro scanner?
      cases scanner? with
      | none => rfl
      | some scanner => simp [Option.filter, hlast]
    rw [hout, hout]

/-! ### Making scanners and streams -/

/-- What is chosen as settings is accepted in two states or in neither. -/
theorem chosen_alike (session other : Session) (value : Option Value) :
    (areAccepted value = false ∧
      ∃ fault, session.chosen value = .error fault ∧ other.chosen value = .error fault) ∨
    (areAccepted value = true ∧
      ∃ settings settings', session.chosen value = .ok settings ∧
        other.chosen value = .ok settings' ∧
        (value.isSome = true ∨ session.active = other.active → settings = settings')) := by
  cases value with
  | none => exact .inr ⟨rfl, _, _, rfl, rfl, by simp⟩
  | some value =>
    cases hsettings : Settings.ofValue value with
    | error fault =>
      refine .inl ⟨?_, fault, hsettings, hsettings⟩
      rw [areAccepted, hsettings]
      rfl
    | ok settings =>
      refine .inr ⟨?_, settings, settings, hsettings, hsettings, fun _ => rfl⟩
      rw [areAccepted, hsettings]
      rfl

theorem madeUnder_put (session : Session) (name other : String) (scanners : List Scanner) :
    madeUnder { session with scanners := session.scanners.put name scanners } other =
      if name = other then scanners else session.madeUnder other := by
  by_cases hname : name = other
  · subst hname
    rw [if_pos rfl, madeUnder, Registry.find?_put_self, Option.getD_some]
  · rw [if_neg hname, madeUnder, Registry.find?_put_of_ne _ _ hname, madeUnder]

/-- Streams that are alike are kept under a name, after work that concerns no other stream. -/
theorem Alike.putStream {stream stream' : Stream} (h : session.Alike number past other)
    (hmakers : ∀ made, makers made later = makers made past)
    (hothers : ∀ key ≠ name, streamMaker? key later = streamMaker? key past)
    (hstreams : StreamsAlike number (streamMaker? name later) (makers · past) (some stream)
      (some stream')) :
    (session.putStream name stream).Alike number later (other.putStream name stream') where
  names := h.names
  distinct := h.distinct
  scanners made := by rw [hmakers]; exact h.scanners made
  streams key := by
    rw [funext hmakers]
    by_cases hkey : name = key
    · subst hkey
      simp only [Session.putStream, Registry.find?_put_self]
      exact hstreams
    · rw [hothers key (Ne.symm hkey)]
      simp only [Session.putStream, Registry.find?_put_of_ne _ _ hkey]
      exact h.streams key

/-- A row of scanners is kept under a name in two states. -/
theorem Alike.names_put (h : session.Alike number past other) (scanners others : List Scanner) :
    (other.scanners.put name others).names = (session.scanners.put name scanners).names := by
  rw [Registry.names_put, Registry.names_put, h.names]

/-- Scanners are made under a name; the one in question is the same in both states. -/
theorem Alike.addScanner {scanner scanner' : Scanner} (h : session.Alike number past other)
    (hmakers : ∀ key, makers key later =
      if name = key then makers key past ++ [past.length] else makers key past)
    (hstreams : ∀ key, streamMaker? key later = streamMaker? key past)
    (hnew : past.length = number → scanner = scanner') :
    (session.addScanner name scanner).Alike number later (other.addScanner name scanner') where
  names := h.names_put _ _
  distinct := Registry.nodup_names_put h.distinct _ _
  scanners key := by
    rw [Session.addScanner, Session.addScanner, madeUnder_put, madeUnder_put, hmakers]
    by_cases hkey : name = key
    · subst hkey
      simp only [if_true]
      exact (h.scanners name).concat hnew
    · simp only [if_neg hkey]
      exact h.scanners key
  streams key := by
    rw [hstreams]
    refine (h.streams key).mono fun made => ?_
    rw [hmakers]
    split
    · exact List.prefix_append _ _
    · exact List.prefix_rfl

/-! ### Reading streams -/

/-- A stream is found in two states that are alike or in neither, and if it reads the scanner in
question, it is the same. -/
theorem Alike.stream? (h : session.Alike number past other) (name : String) :
    (session.stream? name = none ∧ other.stream? name = none) ∨
    ∃ stream stream' scanner scanner', session.stream? name = some (stream, scanner) ∧
      other.stream? name = some (stream', scanner') ∧
      (streamMaker? name past = some number → stream.phase = stream'.phase ∧
        scanner = scanner') := by
  have hstream := h.streams name
  unfold Session.stream?
  cases hfind : session.streams.find? name with
  | none =>
    rw [hfind] at hstream
    cases hfind' : other.streams.find? name with
    | none => exact .inl ⟨rfl, rfl⟩
    | some stream => rw [hfind'] at hstream; cases hstream
  | some stream =>
    rw [hfind] at hstream
    cases hfind' : other.streams.find? name with
    | none => rw [hfind'] at hstream; cases hstream
    | some stream' =>
      rw [hfind'] at hstream
      right
      cases hstream with
      | @own scanner scanner' phase phase' same =>
        exact ⟨_, _, scanner, scanner', rfl, rfl, fun hmaker => (same hmaker).symm⟩
      | @named made index maker phase phase' makes made_by same =>
        obtain ⟨scanner, scanner', hscanner, hscanner', hsame⟩ :=
          (h.scanners made).exists_of_maker made_by
        refine ⟨⟨.named made index, phase⟩, ⟨.named made index, phase'⟩, scanner, scanner', ?_, ?_,
          fun hmaker => ?_⟩
        · simp only [Option.bind_eq_bind, Option.bind_some, scannerOf?, hscanner, Option.pure_def]
        · simp only [Option.bind_eq_bind, Option.bind_some, scannerOf?, hscanner', Option.pure_def]
        · obtain rfl := Option.some.inj (makes.symm.trans hmaker)
          exact ⟨same rfl, hsame rfl⟩

theorem madeUnder_afterReading (session : Session) (name made : String) (index : Nat)
    (phase : Phase) (scanner : Scanner) (events : List Event) (other : String) :
    (session.afterReading name (.named made index) phase scanner events).madeUnder other =
      if made = other then (session.madeUnder made).set index scanner
      else session.madeUnder other :=
  madeUnder_put session made other _

/-- A stream is read in two states that are alike. -/
theorem Alike.afterReading {stream stream' : Stream} {phase phase' : Phase}
    {scanner scanner' : Scanner} (h : session.Alike number past other)
    (hfind : session.streams.find? name = some stream)
    (hfind' : other.streams.find? name = some stream')
    (hsame : streamMaker? name past = some number → phase = phase' ∧ scanner = scanner')
    (events events' : List Event) :
    (session.afterReading name stream.origin phase scanner events).Alike number past
      (other.afterReading name stream'.origin phase' scanner' events') := by
  have hstream := h.streams name
  rw [hfind, hfind'] at hstream
  cases hstream with
  | own =>
    -- The scanner is kept with the stream.
    have hput := h.putStream (fun _ => rfl) (fun _ _ => rfl)
      (.own fun hmaker => (hsame hmaker).symm)
    exact hput.of_sameWork ⟨rfl, rfl⟩ ⟨rfl, rfl⟩
  | @named made index maker _ _ makes made_by =>
    -- The scanner is kept under its name, where other streams find it.
    have hput := h.putStream (fun _ => rfl) (fun _ _ => rfl)
      (.named makes made_by fun hmaker => (hsame (hmaker ▸ makes)).1)
    refine ⟨h.names_put _ _, Registry.nodup_names_put h.distinct _ _, fun key => ?_, hput.streams⟩
    rw [madeUnder_afterReading, madeUnder_afterReading]
    split
    · next hkey =>
      subst hkey
      exact (h.scanners made).set made_by fun hmaker => (hsame (hmaker ▸ makes)).2
    · exact h.scanners key

/-- What comes of an action on a stream in two states: they stay alike, and the answers are the
same if the stream reads the scanner in question. -/
structure ResultsAlike (number : Nat) (past : List Action) (name : String)
    (result result' : Answer × Session) : Prop where
  /-- The states stay alike. -/
  state : result.2.Alike number past result'.2
  /-- The answers are the same. -/
  answer : streamMaker? name past = some number → result.1 = result'.1

theorem Alike.onStream {action action' : Stream → Scanner → Answer × Session}
    (h : session.Alike number past other)
    (hread : ∀ stream stream' scanner scanner', session.streams.find? name = some stream →
      other.streams.find? name = some stream' →
      (streamMaker? name past = some number →
        stream.phase = stream'.phase ∧ scanner = scanner') →
      ResultsAlike number past name (action stream scanner) (action' stream' scanner')) :
    ResultsAlike number past name (session.onStream name action) (other.onStream name action') := by
  unfold Session.onStream
  obtain ⟨hnone, hnone'⟩ | ⟨stream, stream', scanner, scanner', hstream, hstream', hsame⟩ :=
    h.stream? name
  · rw [hnone, hnone']
    exact ⟨h, fun _ => rfl⟩
  · rw [hstream, hstream']
    exact hread _ _ _ _ (find?_of_stream? hstream) (find?_of_stream? hstream') hsame

/-- A stream is read by one of the actions that do so. -/
theorem Alike.readBy (h : session.Alike number past other) (name : String)
    (read : Phase → Scanner → Reading) :
    ResultsAlike number past name (session.readBy name read) (other.readBy name read) := by
  refine h.onStream fun stream stream' scanner scanner' hfind hfind' hsame => ?_
  constructor
  case state =>
    refine h.afterReading hfind hfind' (fun hmaker => ?_) _ _
    obtain ⟨hphase, rfl⟩ := hsame hmaker
    rw [hphase]
    exact ⟨rfl, rfl⟩
  case answer =>
    intro hmaker
    obtain ⟨hphase, rfl⟩ := hsame hmaker
    simp only [hphase]

theorem Alike.close (h : session.Alike number past other) (name : String) :
    ResultsAlike number past name (session.perform (.close name))
      (other.perform (.close name)) := by
  refine h.onStream fun stream stream' scanner scanner' hfind hfind' _ => ?_
  have hstream := h.streams name
  rw [hfind, hfind'] at hstream
  exact ⟨h.putStream (fun _ => rfl) (fun _ _ => rfl) (hstream.withPhase .ended), fun _ => rfl⟩

/-! ### The same work in two sessions -/

theorem Alike.make {value : Option Value} (h : session.Alike number past other)
    (name source : String) (sourceFile : Option String)
    (hcaptured : past.length = number → value.isSome = true ∨ session.active = other.active) :
    let action : Action := .make name source sourceFile value
    (session.perform action).2.Alike number (action :: past) (other.perform action).2 := by
  intro action
  simp only [action, Session.perform]
  obtain ⟨hrefused, fault, hchosen, hchosen'⟩ |
    ⟨haccepted, settings, settings', hchosen, hchosen', hsame⟩ := chosen_alike session other value
  · rw [hchosen, hchosen']
    exact h.of_past (fun key => by simp [makers, hrefused]) fun _ => rfl
  · rw [hchosen, hchosen']
    exact h.addScanner (fun key => by simp [makers, haccepted]) (fun _ => rfl)
      fun hlast => by rw [hsame (hcaptured hlast)]

theorem Alike.scan {value : Option Value} (h : session.Alike number past other)
    (name source : String) (sourceFile : Option String)
    (hcaptured : past.length = number → value.isSome = true ∨ session.active = other.active) :
    let action : Action := .scan name source sourceFile value
    (session.perform action).2.Alike number (action :: past) (other.perform action).2 := by
  intro action
  simp only [action, Session.perform]
  obtain ⟨hrefused, fault, hchosen, hchosen'⟩ |
    ⟨haccepted, settings, settings', hchosen, hchosen', hsame⟩ := chosen_alike session other value
  · rw [hchosen, hchosen']
    exact h.of_past (fun _ => rfl) fun key => by simp [streamMaker?, hrefused]
  · rw [hchosen, hchosen']
    refine h.putStream (fun _ => rfl) (fun key hkey => by simp [streamMaker?, Ne.symm hkey])
      (.own fun hmaker => ?_)
    have hlast : past.length = number := by simpa [streamMaker?, haccepted] using hmaker
    rw [hsame (hcaptured hlast)]
    exact ⟨rfl, rfl⟩

theorem Alike.makeStream (h : session.Alike number past other) (made name : String) :
    let action : Action := .stream made name
    (session.perform action).2.Alike number (action :: past) (other.perform action).2 := by
  intro action
  have hmade := h.scanners made
  simp only [action, Session.perform]
  cases hlast : (makers made past).getLast? with
  | none =>
    rw [List.getLast?_eq_none_iff] at hlast
    rw [hlast] at hmade
    rw [List.eq_nil_of_length_eq_zero hmade.length_eq,
      List.eq_nil_of_length_eq_zero hmade.length_eq']
    exact h.of_past (fun _ => rfl) fun key => by simp [streamMaker?, hlast]
  | some maker =>
    have hmaker : (makers made past)[(makers made past).length - 1]? = some maker := by
      rw [← List.getLast?_eq_getElem?, hlast]
    have hpos : 0 < (makers made past).length :=
      List.length_pos_of_mem (List.mem_of_getLast? hlast)
    obtain ⟨first, older, hunder⟩ := List.exists_cons_of_length_pos (hmade.length_eq ▸ hpos)
    obtain ⟨first', older', hunder'⟩ := List.exists_cons_of_length_pos (hmade.length_eq' ▸ hpos)
    have holder : older.length = (makers made past).length - 1 := by
      rw [← hmade.length_eq, hunder, List.length_cons, Nat.add_sub_cancel]
    have holder' : older'.length = (makers made past).length - 1 := by
      rw [← hmade.length_eq', hunder', List.length_cons, Nat.add_sub_cancel]
    rw [hunder, hunder']
    simp only [holder, holder']
    exact h.putStream (fun _ => rfl) (fun key hkey => by simp [streamMaker?, Ne.symm hkey])
      (.named (by simp [streamMaker?, hlast]) hmaker fun _ => rfl)

/-- **The same work keeps two states alike**, and a stream of the scanner in question answers in
both the same.  At the deed that makes this scanner, it has to capture the same settings. -/
theorem Alike.perform (h : session.Alike number past other) {action : Action}
    (hwork : action.isWork = true)
    (hcaptured : past.length = number →
      action.namesSettings = true ∨ session.active = other.active) :
    (session.perform action).2.Alike number (action :: past) (other.perform action).2 ∧
      (action.subject?.bind (streamMaker? · past) = some number →
        (session.perform action).1 = (other.perform action).1) := by
  cases action with
  | get | set | reset | enter | exit => contradiction
  | next name =>
    rw [perform_next, perform_next]
    have hread := h.readBy name .next
    exact ⟨hread.state.of_past (fun _ => rfl) fun _ => rfl, hread.answer⟩
  | drain name =>
    rw [perform_drain, perform_drain]
    have hread := h.readBy name (.toEnd fun drained => .tokens drained.tokens drained.stopped)
    exact ⟨hread.state.of_past (fun _ => rfl) fun _ => rfl, hread.answer⟩
  | close name =>
    have hclose := h.close name
    exact ⟨hclose.state.of_past (fun _ => rfl) fun _ => rfl, hclose.answer⟩
  | serialize name indent =>
    rw [perform_serialize, perform_serialize]
    have hread := h.readBy name (.toEnd (Reading.serialized indent))
    exact ⟨hread.state.of_past (fun _ => rfl) fun _ => rfl, hread.answer⟩
  | source name =>
    refine ⟨?_, by simp [Action.subject?]⟩
    have hsame : ∀ session : Session, session.SameWork (session.perform (.source name)).2 := by
      intro session
      simp only [Session.perform]
      split <;> exact ⟨rfl, rfl⟩
    have hpast : session.Alike number (.source name :: past) other :=
      h.of_past (fun _ => rfl) fun _ => rfl
    exact hpast.of_sameWork (hsame _) (hsame _)
  | make name source sourceFile value =>
    refine ⟨h.make name source sourceFile fun hlast => ?_, by simp [Action.subject?]⟩
    cases value with
    | none => exact .inr ((hcaptured hlast).resolve_left (by simp [Action.namesSettings]))
    | some value => exact .inl rfl
  | stream made name => exact ⟨h.makeStream made name, by simp [Action.subject?]⟩
  | scan name source sourceFile value =>
    refine ⟨h.scan name source sourceFile fun hlast => ?_, by simp [Action.subject?]⟩
    cases value with
    | none => exact .inr ((hcaptured hlast).resolve_left (by simp [Action.namesSettings]))
    | some value => exact .inl rfl

end Session

end TokenStream
