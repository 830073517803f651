import SpotGridBot.Feed.ConnectionBaseMD
import SpotGridBot.Lib.Replace
import SpotGridBot.Lib.Runs

namespace SpotGridBot.Binance
open Utils Feed Runs Replace

/-- What comes of a request. A document that is read gets to the worker: `update` is what
`ParseMessage` makes of it, `none` where that throws, and `returns` tells whether the wait ends. -/
inductive Response where
  | empty
  -- `JSONDocument` throws, or `stol` on the `lastUpdateId`.
  | malformed
  | document (lastUpdateId : ℤ) (update : Option (List Level × List Level)) (returns : Bool)

structure Published where
  instrument : String
  -- Where the response with these levels was asked for.
  url : String
  levels : List Level
deriving DecidableEq

structure Snapshots where
  base : ConnectionBaseMD := {}
  snapshotHttp : String
  lastUpdateId : ℤ := 0
  snapshot : CurrencyPair → Bool := fun _ => false
  requested : List String := []
  published : List Published := []

/-- `Poco::replaceInPlace`, for the placeholder of the template. -/
def substitute (template inst : String) : String :=
  String.ofList (replace "INSTRUMENT".toList inst.toList template.toList)

namespace Snapshots
variable (reg : Registry) (s : Snapshots)

def publishSide (inst : String) (levels : List Level) (side : Char) : Option Snapshots :=
  (s.base.publishLevels reg levels side inst).map fun base =>
    { s with base, published := s.published ++ [⟨inst, s.snapshotHttp, levels⟩] }

def handle (inst : String) : Option (List Level × List Level) → Snapshots
  | none => s
  | some (bids, asks) =>
      match s.publishSide reg inst bids '0' with
      | none => s
      | some s => (s.publishSide reg inst asks '1').getD s

def visit (inst : String) (response : Response) : Bool × Snapshots :=
  let s := { s with snapshotHttp := substitute s.snapshotHttp inst }
  let s := { s with requested := s.requested ++ [s.snapshotHttp] }
  match response with
  | .empty => (false, s)
  | .malformed => (true, s)
  | .document lastUpdateId update returns =>
      let s := { s with lastUpdateId }.handle reg inst update
      if returns then
        (true,
          { s with snapshot := Function.update s.snapshot (reg.getCurrencyPair inst) true })
      else (false, s)

def snapshots (s : Snapshots) : List (String × Response) → Snapshots
  | [] => s
  | (inst, response) :: calls =>
      match s.visit reg inst response with
      | (true, s) => snapshots s calls
      | (false, s) => s

structure EachItsOwn (template : String) (instruments : List String) : Prop where
  requested : s.requested = instruments.map (substitute template)
  published : ∀ levels ∈ s.published, levels.url = substitute template levels.instrument

end Snapshots

def Response.GoesOn : Response → Bool
  | .empty => false
  | .malformed => true
  | .document _ _ returns => returns

def OwnUrls (template : String) (instruments : List String) : Prop :=
  Along substitute (fun left inst => substitute left inst = substitute template inst) template
    instruments

def asked : List (String × Response) → List String
  | [] => []
  | (inst, response) :: calls => inst :: if response.GoesOn then asked calls else []

def urls : String → List String → List String
  | _, [] => []
  | template, inst :: instruments =>
      substitute template inst :: urls (substitute template inst) instruments

theorem urls_length (template : String) (instruments : List String) :
    (urls template instruments).length = instruments.length := by
  induction instruments generalizing template with
  | nil => rfl
  | cons inst instruments ih => exact congrArg (· + 1) (ih _)

theorem urls_eq_map_iff (template left : String) (instruments : List String) :
    urls left instruments = instruments.map (substitute template) ↔
      Along substitute (fun left inst => substitute left inst = substitute template inst) left
        instruments := by
  induction instruments generalizing left with
  | nil => exact iff_of_true rfl trivial
  | cons inst instruments ih =>
      rw [urls, List.map_cons, List.cons.injEq, ih]
      rfl

theorem asked_initial (calls : List (String × Response)) : asked calls <+: calls.map Prod.fst := by
  induction calls with
  | nil => exact List.prefix_rfl
  | cons call calls ih =>
      obtain ⟨inst, response⟩ := call
      rw [asked, List.map_cons, List.prefix_cons_inj]
      split
      · exact ih
      · exact List.nil_prefix

theorem asked_eq_iff (calls : List (String × Response)) :
    asked calls = calls.map Prod.fst ↔ ∀ call ∈ calls.dropLast, call.2.GoesOn = true := by
  induction calls with
  | nil => simp [asked]
  | cons call calls ih =>
      obtain ⟨inst, response⟩ := call
      cases calls with
      | nil => simp [asked]
      | cons next calls =>
          rw [asked, List.map_cons, List.cons.injEq, List.dropLast_cons_cons, List.forall_mem_cons,
            ← ih]
          by_cases goes : response.GoesOn = true
          · simp [goes]
          · simp [goes]

namespace Snapshots
variable (reg : Registry) (s : Snapshots)

structure Adds (s' : Snapshots) (inst : String) : Prop where
  snapshotHttp : s'.snapshotHttp = s.snapshotHttp
  requested : s'.requested = s.requested
  published : ∀ levels ∈ s'.published,
    levels ∈ s.published ∨ levels.instrument = inst ∧ levels.url = s.snapshotHttp

theorem Adds.refl (inst : String) : s.Adds s inst := ⟨rfl, rfl, fun _ old => .inl old⟩

variable {s}

theorem Adds.trans {s' s'' : Snapshots} {inst : String} (first : s.Adds s' inst)
    (second : s'.Adds s'' inst) : s.Adds s'' inst := by
  refine ⟨second.snapshotHttp.trans first.snapshotHttp,
    second.requested.trans first.requested, fun levels member => ?_⟩
  rcases second.published levels member with old | ⟨here, url⟩
  · exact first.published levels old
  · exact .inr ⟨here, url.trans first.snapshotHttp⟩

theorem publishSide_adds {inst : String} {levels : List Level} {side : Char} {s' : Snapshots}
    (publishes : s.publishSide reg inst levels side = some s') : s.Adds s' inst := by
  obtain ⟨base, -, rfl⟩ := Option.map_eq_some_iff.mp publishes
  refine ⟨rfl, rfl, fun levels' member => ?_⟩
  rcases List.mem_append.mp member with old | new
  · exact .inl old
  · rw [List.mem_singleton.mp new]
    exact .inr ⟨rfl, rfl⟩

theorem handle_adds (inst : String) (update : Option (List Level × List Level)) :
    s.Adds (s.handle reg inst update) inst := by
  unfold handle
  split
  next => exact Adds.refl s inst
  next bids asks =>
    split
    next => exact Adds.refl s inst
    next s' bid =>
      have first := publishSide_adds reg bid
      cases ask : s'.publishSide reg inst asks '1' with
      | none => exact first
      | some s'' => exact first.trans (publishSide_adds reg ask)

theorem visit_spec (inst : String) (response : Response) :
    (s.visit reg inst response).1 = response.GoesOn ∧
    (s.visit reg inst response).2.snapshotHttp = substitute s.snapshotHttp inst ∧
    (s.visit reg inst response).2.requested =
      s.requested ++ [substitute s.snapshotHttp inst] ∧
    ∀ levels ∈ (s.visit reg inst response).2.published, levels ∈ s.published ∨
      levels.instrument = inst ∧ levels.url = substitute s.snapshotHttp inst := by
  cases response with
  | empty => exact ⟨rfl, rfl, rfl, fun _ old => .inl old⟩
  | malformed => exact ⟨rfl, rfl, rfl, fun _ old => .inl old⟩
  | document lastUpdateId update returns =>
      have adds := handle_adds reg (s := { s with
        snapshotHttp := substitute s.snapshotHttp inst
        requested := s.requested ++ [substitute s.snapshotHttp inst]
        lastUpdateId }) inst update
      cases returns with
      | true => exact ⟨rfl, adds.snapshotHttp, adds.requested, adds.published⟩
      | false => exact ⟨rfl, adds.snapshotHttp, adds.requested, adds.published⟩

theorem snapshots_spec (calls : List (String × Response)) :
    (s.snapshots reg calls).requested = s.requested ++ urls s.snapshotHttp (asked calls) ∧
    ∀ levels ∈ (s.snapshots reg calls).published, levels ∈ s.published ∨
      (levels.instrument, levels.url) ∈ (asked calls).zip (urls s.snapshotHttp (asked calls)) := by
  induction calls generalizing s with
  | nil => exact ⟨(List.append_nil _).symm, fun _ old => .inl old⟩
  | cons call calls ih =>
      obtain ⟨inst, response⟩ := call
      obtain ⟨goesOn, snapshotHttp, requested, published⟩ := visit_spec (s := s) reg inst response
      generalize visited : s.visit reg inst response = turn
        at goesOn snapshotHttp requested published
      obtain ⟨goes, s'⟩ := turn
      obtain rfl : goes = response.GoesOn := goesOn
      rw [snapshots, visited, asked]
      cases response.GoesOn with
      | false =>
          refine ⟨requested, fun levels member => ?_⟩
          rcases published levels member with old | ⟨here, url⟩
          · exact .inl old
          · simp [urls, here, url]
      | true =>
          obtain ⟨laterRequested, laterPublished⟩ := ih (s := s')
          simp only [if_true, urls]
          refine ⟨?_, fun levels member => ?_⟩
          · rw [laterRequested, requested, snapshotHttp, List.append_assoc]
            rfl
          · rw [List.zip_cons_cons, List.mem_cons, Prod.mk.injEq]
            rcases laterPublished levels member with earlier | later
            · rcases published levels earlier with old | new
              · exact .inl old
              · exact .inr (.inl new)
            · rw [snapshotHttp] at later
              exact .inr (.inr later)

theorem eachItsOwn_iff_asked {template : String} (configured : s.snapshotHttp = template)
    (fresh : s.requested = []) (unpublished : s.published = [])
    (calls : List (String × Response)) :
    (s.snapshots reg calls).EachItsOwn template (calls.map Prod.fst) ↔
      OwnUrls template (calls.map Prod.fst) ∧ asked calls = calls.map Prod.fst := by
  obtain ⟨requested, published⟩ := snapshots_spec (s := s) reg calls
  rw [fresh, configured, List.nil_append] at requested
  rw [unpublished, configured] at published
  constructor
  · intro own
    have same : urls template (asked calls) = (calls.map Prod.fst).map (substitute template) :=
      requested.symm.trans own.requested
    have all : asked calls = calls.map Prod.fst := by
      apply (asked_initial calls).eq_of_length
      rw [← urls_length template (asked calls), same, List.length_map]
    rw [all] at same
    exact ⟨(urls_eq_map_iff template template _).mp same, all⟩
  · rintro ⟨ownUrls, all⟩
    have same := (urls_eq_map_iff template template _).mpr ownUrls
    rw [all, same] at requested published
    refine ⟨requested, fun levels member => ?_⟩
    rcases published levels member with none | listed
    · simp at none
    · obtain ⟨n, bound, here⟩ := List.mem_iff_getElem.mp listed
      simp only [List.getElem_zip, List.getElem_map, Prod.mk.injEq] at here
      rw [← here.1, ← here.2]

end Snapshots

theorem substitute_of_absent {template : String}
    (absent : ¬ "INSTRUMENT".toList <:+: template.toList) (inst : String) :
    substitute template inst = template := by
  unfold substitute
  rw [replace_of_absent _ absent, String.ofList_toList]

theorem substitute_injective {template : String}
    (placeholder : "INSTRUMENT".toList <:+: template.toList) {inst inst' : String}
    (same : substitute template inst = substitute template inst') : inst = inst' := by
  have texts := replace_injective (by decide) placeholder (String.ofList_injective same)
  exact String.toList_inj.mp texts

theorem OwnUrls.length_le {template inst : String} {instruments : List String}
    (own : OwnUrls template (inst :: instruments))
    (placeholder : "INSTRUMENT".toList <:+: template.toList) (distinct : (inst :: instruments).Nodup)
    (used : ¬ "INSTRUMENT".toList <:+: (substitute template inst).toList) : instruments = [] := by
  cases instruments with
  | nil => rfl
  | cons next instruments =>
      obtain ⟨-, second, -⟩ := own
      rw [substitute_of_absent used] at second
      have same := substitute_injective placeholder second
      exact absurd (same ▸ List.mem_cons_self) (List.nodup_cons.mp distinct).1

theorem ownUrls_of_absent {template : String}
    (absent : ¬ "INSTRUMENT".toList <:+: template.toList) (instruments : List String) :
    OwnUrls template instruments := by
  rw [OwnUrls, ← urls_eq_map_iff]
  induction instruments with
  | nil => rfl
  | cons inst instruments ih => rw [urls, List.map_cons, substitute_of_absent absent, ih]

theorem ownUrls_of_length_le {instruments : List String} (single : instruments.length ≤ 1)
    (template : String) : OwnUrls template instruments := by
  match instruments, single with
  | [], _ => exact trivial
  | [_], _ => exact ⟨rfl, trivial⟩

/-- Every instrument gets its own snapshot where there is one instrument only, or no placeholder, and
no turn before the last ends the loop. With more instruments this takes a first one whose URL has
the placeholder again. -/
theorem Snapshots.eachItsOwn_single (reg : Registry) (base : ConnectionBaseMD) (template : String)
    (lastUpdateId : ℤ) (snapshot : CurrencyPair → Bool) (calls : List (String × Response))
    (distinct : (calls.map Prod.fst).Nodup) :
    (("INSTRUMENT".toList <:+: template.toList → calls.length ≤ 1) ∧
        (∀ call ∈ calls.dropLast, call.2.GoesOn = true) →
      (snapshots reg ⟨base, template, lastUpdateId, snapshot, [], []⟩ calls).EachItsOwn template
        (calls.map Prod.fst)) ∧
    ((snapshots reg ⟨base, template, lastUpdateId, snapshot, [], []⟩ calls).EachItsOwn template
        (calls.map Prod.fst) →
      ("INSTRUMENT".toList <:+: template.toList → calls.length ≤ 1 ∨
        ∃ call ∈ calls.head?, "INSTRUMENT".toList <:+: (substitute template call.1).toList) ∧
      ∀ call ∈ calls.dropLast, call.2.GoesOn = true) := by
  rw [eachItsOwn_iff_asked reg rfl rfl rfl, asked_eq_iff]
  refine ⟨fun ⟨single, goesOn⟩ => ⟨?_, goesOn⟩, fun ⟨own, goesOn⟩ => ⟨fun placeholder => ?_, goesOn⟩⟩
  · by_cases placeholder : "INSTRUMENT".toList <:+: template.toList
    · exact ownUrls_of_length_le (by simpa using single placeholder) template
    · exact ownUrls_of_absent placeholder _
  · cases calls with
    | nil => exact .inl (Nat.zero_le 1)
    | cons call calls =>
        by_cases again : "INSTRUMENT".toList <:+: (substitute template call.1).toList
        · exact .inr ⟨call, rfl, again⟩
        · have rest : calls = [] := List.map_eq_nil_iff.mp (own.length_le placeholder distinct again)
          exact .inl (by simp [rest])

def depthUrl : String := "https://api.binance.com/api/v3/depth?symbol=INSTRUMENT&limit=10"

theorem Snapshots.eachItsOwn_single_empty :
    (Snapshots.snapshots noCurrencies ⟨{}, depthUrl, 0, fun _ => false, [], []⟩
      [("BTCUSDT", .empty)]).EachItsOwn depthUrl ["BTCUSDT"] :=
  (Snapshots.eachItsOwn_single noCurrencies {} depthUrl 0 (fun _ => false) [("BTCUSDT", .empty)]
    (by decide)).1 ⟨fun _ => by decide, by decide⟩

def twoInstruments : List (String × Response) :=
  [("BTCUSDT", .document 1 (some ([], [])) true), ("ETHUSDT", .document 2 (some ([], [])) true)]

theorem secondInstrument_getsFirst :
    ¬ ∀ (reg : Registry) (base : ConnectionBaseMD) (template : String) (lastUpdateId : ℤ)
      (snapshot : CurrencyPair → Bool) (calls : List (String × Response)),
      (calls.map Prod.fst).Nodup →
      (Snapshots.snapshots reg ⟨base, template, lastUpdateId, snapshot, [], []⟩ calls).EachItsOwn
        template (calls.map Prod.fst) := by
  intro always
  have own := always noCurrencies {} depthUrl 0 (fun _ => false) twoInstruments (by decide)
  have requested := own.requested
  revert requested
  decide +kernel

end SpotGridBot.Binance
