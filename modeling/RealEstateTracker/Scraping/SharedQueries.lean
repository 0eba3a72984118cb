import RealEstateTracker.Application.ConditionParser
import RealEstateTracker.Application.QueryGroups
import RealEstateTracker.Infrastructure.IdealistaScraper

/-!
# Shared queries

Alerts are meant to share a query exactly when they mean the same search.  The
signature is taken of unescaped text, so it may merge two searches; it is taken
of the spelling of the last value, so it may split one; and Idealista's URL does
not mention the price, so two queries may download one page.
-/

namespace RealEstateTracker.Scraping

open Foundation Domain Application Infrastructure QueryText

section Runtime

variable [runtime : PythonRuntime]
  {capabilities : Dict String PortalCapabilities}

/-! ## Alerts of one query -/

def AlertsShareOwnQuery (capabilities : Dict String PortalCapabilities)
    (dueAlerts : List SearchAlert) : Prop :=
  ∀ planned ∈ plan capabilities dueAlerts, ∀ alert ∈ planned.alerts, ∀ key,
    (pushableParams capabilities alert planned.portalSlug).get key =
      planned.query.params.get key

/-- What an alert pushes under a key does not swallow what another pushes. -/
def NoSwallowing (capabilities : Dict String PortalCapabilities)
    (dueAlerts : List SearchAlert) : Prop :=
  ∀ portalSlug, ∀ a ∈ dueAlerts, ∀ b ∈ dueAlerts,
    portalSlug ∈ a.portalSlugs.sorted → portalSlug ∈ b.portalSlugs.sorted →
      ¬Swallows (pushedEntries capabilities portalSlug a)
        (pushedEntries capabilities portalSlug b)

theorem not_alertsShareOwnQuery {dueAlerts : List SearchAlert}
    {portalSlug : String} {a b : SearchAlert} (ha : a ∈ dueAlerts)
    (hb : b ∈ dueAlerts) (hslugA : portalSlug ∈ a.portalSlugs.sorted)
    (hslugB : portalSlug ∈ b.portalSlugs.sorted)
    (hsignature : alertSignature capabilities portalSlug b =
      alertSignature capabilities portalSlug a)
    (hne : pushedEntries capabilities portalSlug a ≠
      pushedEntries capabilities portalSlug b) :
    ¬AlertsShareOwnQuery capabilities dueAlerts := by
  intro hown
  obtain ⟨planned, hplanned, rfl, hkey⟩ :=
    @exists_planned _ capabilities _ _ _ ha hslugA
  have hspec := planned_of_mem hplanned
  have hmemA : a ∈ planned.alerts :=
    hspec.mem_alerts.mpr ⟨ha, hslugA, hkey.symm⟩
  have hmemB : b ∈ planned.alerts :=
    hspec.mem_alerts.mpr ⟨hb, hslugB, hsignature.trans hkey.symm⟩
  refine hne (pushedEntries_eq_iff.mpr fun key => ?_)
  rw [← get_pushableParams, ← get_pushableParams, hown _ hplanned a hmemA,
    hown _ hplanned b hmemB]

/--
Alerts share a query only if it is their own, exactly when no value pushed for
one of them spells out parameters pushed for another.
-/
theorem alerts_share_own_query_iff (hsha : Function.Injective runtime.sha256)
    (dueAlerts : List SearchAlert) :
    AlertsShareOwnQuery capabilities dueAlerts ↔
      NoSwallowing capabilities dueAlerts := by
  constructor
  · intro hown portalSlug a ha b hb hslugA hslugB hswallows
    refine not_alertsShareOwnQuery ha hb hslugA hslugB ?_ hswallows.ne hown
    exact (alertSignature_eq_iff hsha).mpr (.inr (.inr hswallows))
  · intro hnone planned hplanned alert halert key
    have hspec := planned_of_mem hplanned
    obtain ⟨first, rest, halerts, hquery⟩ := hspec.query
    have hfirst : first ∈ planned.alerts := by rw [halerts]; exact .head _
    obtain ⟨hdue, hslug, hsignature⟩ := hspec.mem_alerts.mp halert
    obtain ⟨hdue', hslug', hsignature'⟩ := hspec.mem_alerts.mp hfirst
    have hentries := (alertSignature_eq_iff hsha).mp
      (hsignature.trans hsignature'.symm)
    rw [or_iff_left, pushedEntries_eq_iff] at hentries
    · rw [hquery, get_pushableParams, get_pushableParams, hentries]
    · rintro (h | h)
      · exact hnone _ _ hdue _ hdue' hslug hslug' h
      · exact hnone _ _ hdue' _ hdue hslug' hslug h

/-! ## Alerts with the same conditions -/

/-- `x == y`, for the values of two conditions. -/
def EqualValues : Option ConditionValue → Option ConditionValue → Prop
  | none, none => True
  | some (.scalar x), some (.scalar y) => x.pyEq y = .ok true
  | some (.tuple xs), some (.tuple ys) =>
      List.Forall₂ (fun x y => x.pyEq y = .ok true) xs ys
  | _, _ => False

inductive EqualNodes : ConditionNode → ConditionNode → Prop
  | same (node : ConditionNode) : EqualNodes node node
  | leaf (c d : AlertCondition) (hfield : c.fieldKey = d.fieldKey)
      (hop : c.operator = d.operator) (hvalue : EqualValues c.value d.value) :
      EqualNodes (.leaf c) (.leaf d)

/-- Two AND groups over the same conditions in any order. -/
def SameConditions (a b : SearchAlert) : Prop :=
  a.conditions.operator = .all ∧ b.conditions.operator = .all ∧
    ∃ children, a.conditions.children.Perm children ∧
      List.Forall₂ EqualNodes children b.conditions.children

/--
Two alerts have the same signature exactly when the last conditions that write a
parameter give it the same text, for every parameter, or the value of one spells
out parameters of the other.
-/
theorem same_signature_iff (hsha : Function.Injective runtime.sha256)
    (portalSlug : String) (a b : SearchAlert) :
    signature portalSlug (pushableParams capabilities a portalSlug) =
        signature portalSlug (pushableParams capabilities b portalSlug) ↔
      (∀ key, pushed capabilities portalSlug a key =
          pushed capabilities portalSlug b key) ∨
        Swallows (pushedEntries capabilities portalSlug a)
          (pushedEntries capabilities portalSlug b) ∨
        Swallows (pushedEntries capabilities portalSlug b)
          (pushedEntries capabilities portalSlug a) := by
  rw [← pushedEntries_eq_iff]
  exact alertSignature_eq_iff hsha

/-! ## Queries of one page -/

def NoSharedUrl (dueAlerts : List SearchAlert) : Prop :=
  (plan portalCapabilities dueAlerts).Pairwise fun q r =>
    q.portalSlug = portalSlug → r.portalSlug = portalSlug →
      buildUrl q.query ≠ buildUrl r.query

def pushedText (alert : SearchAlert) : Text :=
  joined (pushedEntries portalCapabilities portalSlug alert)

def SameSegments (a b : SearchAlert) : Prop :=
  let pushed := pushed portalCapabilities portalSlug
  listingTypeUrlSegment (pushed a "listing_type") =
      listingTypeUrlSegment (pushed b "listing_type") ∧
    propertyTypeUrlSegment (pushed a "property_type") =
      propertyTypeUrlSegment (pushed b "property_type") ∧
    provinceUrlSlug (pushed a "province") = provinceUrlSlug (pushed b "province")

/-- The first due alert that pushes its text to Idealista. -/
def Leads (dueAlerts : List SearchAlert) (a : SearchAlert) : Prop :=
  ∃ before after, dueAlerts = before ++ a :: after ∧
    portalSlug ∈ a.portalSlugs.sorted ∧ ∀ b ∈ before,
      portalSlug ∈ b.portalSlugs.sorted → pushedText b ≠ pushedText a

theorem buildUrl_eq_iff {a b : SearchAlert} :
    buildUrl ⟨portalSlug, pushableParams portalCapabilities a portalSlug⟩ =
        buildUrl ⟨portalSlug, pushableParams portalCapabilities b portalSlug⟩ ↔
      SameSegments a b := by
  simp only [buildUrl, get_pushableParams, SameSegments]
  constructor
  · exact searchUrl_inj (not_mem_listingTypeUrlSegment _)
      (not_mem_listingTypeUrlSegment _) (not_mem_propertyTypeUrlSegment _)
      (not_mem_propertyTypeUrlSegment _)
  · rintro ⟨hlisting, htype, hprovince⟩
    rw [hlisting, htype, hprovince]

theorem pushedText_eq_iff (hsha : Function.Injective runtime.sha256)
    {a b : SearchAlert} : pushedText a = pushedText b ↔
      alertSignature portalCapabilities portalSlug a =
        alertSignature portalCapabilities portalSlug b := by
  rw [alertSignature_eq_iff hsha]
  exact joined_eq_iff (fun _ => key_of_mem_pushedEntries)
    (fun _ => key_of_mem_pushedEntries)

theorem exists_leads (hsha : Function.Injective runtime.sha256)
    {dueAlerts : List SearchAlert} {planned : PlannedQuery}
    (hplanned : planned ∈ plan portalCapabilities dueAlerts)
    (hslug : planned.portalSlug = portalSlug) :
    ∃ a, Leads dueAlerts a ∧ planned.query =
        ⟨portalSlug, pushableParams portalCapabilities a portalSlug⟩ ∧
      alertSignature portalCapabilities portalSlug a = planned.signature := by
  have hspec := planned_of_mem hplanned
  obtain ⟨first, rest, halerts, hquery⟩ := hspec.query
  rw [hslug] at hquery
  rw [hspec.alerts, hslug, List.filter_eq_cons_iff] at halerts
  obtain ⟨before, after, hdue, hbefore, hfirst, -⟩ := halerts
  rw [decide_eq_true_eq] at hfirst
  refine ⟨first, ⟨before, after, hdue, hfirst.1, fun b hb hslugB htext => ?_⟩,
    hquery, hfirst.2⟩
  have hnot := hbefore b hb
  simp only [decide_eq_true_eq, not_and] at hnot
  exact hnot hslugB (((pushedText_eq_iff hsha).mp htext).trans hfirst.2)

theorem exists_query_of_leads (hsha : Function.Injective runtime.sha256)
    {dueAlerts : List SearchAlert} {a : SearchAlert} (h : Leads dueAlerts a) :
    ∃ planned ∈ plan portalCapabilities dueAlerts,
      planned.portalSlug = portalSlug ∧
        planned.query =
          ⟨portalSlug, pushableParams portalCapabilities a portalSlug⟩ ∧
        planned.signature = alertSignature portalCapabilities portalSlug a := by
  obtain ⟨before, after, rfl, hslug, hfirst⟩ := h
  obtain ⟨planned, hplanned, hportal, hsignature⟩ :=
    @exists_planned _ portalCapabilities _ _ _
      (List.mem_append_right before (.head after)) hslug
  have hspec := planned_of_mem hplanned
  obtain ⟨first, rest, halerts, hquery⟩ := hspec.query
  have hnone : before.filter (fun alert =>
      planned.portalSlug ∈ alert.portalSlugs.sorted ∧
        alertSignature portalCapabilities planned.portalSlug alert =
          planned.signature) = [] := by
    refine List.filter_eq_nil_iff.mpr fun b hb => ?_
    rw [decide_eq_true_eq, hportal, hsignature]
    rintro ⟨hslugB, heq⟩
    exact hfirst b hb hslugB ((pushedText_eq_iff hsha).mpr heq)
  rw [hspec.alerts, List.filter_append, hnone, List.nil_append, List.filter_cons,
    if_pos (by simp [hportal, hslug, hsignature])] at halerts
  obtain ⟨rfl, -⟩ := List.cons.inj halerts
  exact ⟨planned, hplanned, hportal, by rw [hquery, hportal], hsignature⟩

/--
No page is planned twice, exactly when among the alerts that lead a query the
same URL segments come with the same text of parameters.
-/
theorem no_shared_url_iff (hsha : Function.Injective runtime.sha256)
    (dueAlerts : List SearchAlert) :
    NoSharedUrl dueAlerts ↔ ∀ a b, Leads dueAlerts a → Leads dueAlerts b →
      SameSegments a b → pushedText a = pushedText b := by
  constructor
  · intro hnone a b ha hb hsegments
    obtain ⟨q, hq, hslugQ, hqueryQ, hkeyQ⟩ := exists_query_of_leads hsha ha
    obtain ⟨r, hr, hslugR, hqueryR, hkeyR⟩ := exists_query_of_leads hsha hb
    have hurl : buildUrl q.query = buildUrl r.query := by
      rw [hqueryQ, hqueryR]
      exact buildUrl_eq_iff.mpr hsegments
    rw [pushedText_eq_iff hsha, ← hkeyQ, ← hkeyR]
    by_contra hne
    have hqr : q ≠ r := fun heq => hne (by rw [heq])
    have hsymm : Std.Symm fun q r : PlannedQuery => q.portalSlug = portalSlug →
        r.portalSlug = portalSlug → buildUrl q.query ≠ buildUrl r.query :=
      ⟨fun x y hxy hy hx heq => hxy hx hy heq.symm⟩
    exact hnone.forall hq hr hqr hslugQ hslugR hurl
  · intro hsame
    have hkeys : ((plan portalCapabilities dueAlerts).map fun planned =>
        (planned.portalSlug, planned.signature)).Nodup := nodup_keys_plan dueAlerts
    refine (List.pairwise_map.mp hkeys).imp_of_mem fun {q r} hq hr hne hslugQ hslugR hurl => hne ?_
    obtain ⟨a, ha, hqueryQ, hkeyQ⟩ := exists_leads hsha hq hslugQ
    obtain ⟨b, hb, hqueryR, hkeyR⟩ := exists_leads hsha hr hslugR
    rw [hqueryQ, hqueryR] at hurl
    have htext := hsame a b ha hb (buildUrl_eq_iff.mp hurl)
    rw [hslugQ, hslugR, ← hkeyQ, ← hkeyR, (pushedText_eq_iff hsha).mp htext]

end Runtime

/-! ## Four searches -/

def searchFor (conditions : RuleGroup) : SearchAlert where
  id := .given 1
  userId := .given 0
  name := "Search"
  portalSlugs := .ofList [portalSlug]
  frequencySeconds := 3600
  conditions := conditions
  createdAt := 0
  updatedAt := 0
  isActive := true
  lastRunAt := none
  named := by decide
  monitored := FrozenSet.sorted_singleton_ne_nil portalSlug
  seldom := minFrequencySeconds_le_hour

def typeIs (propertyType : String) : AlertCondition :=
  ⟨"property_type", .eq, some (.scalar (.str propertyType)), rfl, by simp [
    ConditionValue.InRange, Scalar.InRange]⟩

def provinceIs (province : String) : AlertCondition :=
  ⟨"province", .eq, some (.scalar (.str province)), rfl, by simp [
    ConditionValue.InRange, Scalar.InRange]⟩

def flatsInPontevedra : SearchAlert :=
  searchFor ⟨.all, .leaf (typeIs "FLAT"), [.leaf (provinceIs "36")]⟩

def unescaped : SearchAlert :=
  searchFor ⟨.all, .leaf (typeIs "FLAT&province=36"), []⟩

theorem swallows_unescaped :
    Swallows (@pushedEntries .plain portalCapabilities portalSlug flatsInPontevedra)
      (@pushedEntries .plain portalCapabilities portalSlug unescaped) := by
  have hentries : Swallows [("property_type".toList, "FLAT".toList),
        ("province".toList, "36".toList)]
      [("property_type".toList, "FLAT".toList ++ "&province=36".toList)] :=
    .here (by decide) (by decide)
  exact hentries

theorem alertSignature_unescaped :
    @alertSignature .plain portalCapabilities portalSlug unescaped =
      @alertSignature .plain portalCapabilities portalSlug flatsInPontevedra := by
  rw [@alertSignature_eq_iff .plain _ Function.injective_id]
  exact .inr (.inr swallows_unescaped)

/-- Two strings that the parser accepts make two alerts share a query. -/
theorem unescaped_values_share_a_query :
    @parseConditions .plain defaultRegistry
        ["property_type:EQ:FLAT", "province:EQ:36"] =
      .ok flatsInPontevedra.conditions ∧
    @parseConditions .plain defaultRegistry
        ["property_type:EQ:FLAT&province=36"] = .ok unescaped.conditions ∧
    ¬@AlertsShareOwnQuery .plain portalCapabilities
        [flatsInPontevedra, unescaped] := by
  refine ⟨rfl, rfl, ?_⟩
  exact @not_alertsShareOwnQuery .plain _ _ portalSlug _ _ (.head _)
    (.tail _ (.head _)) (by decide) (by decide) alertSignature_unescaped
    swallows_unescaped.ne

theorem alerts_share_own_query_iff_unescaped :
    @AlertsShareOwnQuery .plain portalCapabilities [flatsInPontevedra, unescaped] ↔
      @NoSwallowing .plain portalCapabilities [flatsInPontevedra, unescaped] :=
  @alerts_share_own_query_iff .plain portalCapabilities Function.injective_id _

def priceAtMost (coefficient : Nat) (exponent : Int)
    (h : (Decimal.finite false coefficient exponent).InRange) : AlertCondition :=
  ⟨"price", .lte, some (.scalar (.dec (.finite false coefficient exponent))), rfl,
    by simpa [ConditionValue.InRange, Scalar.InRange] using h⟩

def upTo200000 : AlertCondition := priceAtMost 200000 0 (by decide)

def upTo200000Cents : AlertCondition := priceAtMost 20000000 (-2) (by decide)

def upTo300000 : AlertCondition := priceAtMost 300000 0 (by decide)

/-- Equal prices have two spellings, and the last of two prices decides. -/
theorem same_conditions_differ :
    (SameConditions (searchFor ⟨.all, .leaf upTo200000, []⟩)
        (searchFor ⟨.all, .leaf upTo200000Cents, []⟩) ∧
      @signature .plain portalSlug (@pushableParams .plain portalCapabilities
          (searchFor ⟨.all, .leaf upTo200000, []⟩) portalSlug) ≠
        @signature .plain portalSlug (@pushableParams .plain portalCapabilities
          (searchFor ⟨.all, .leaf upTo200000Cents, []⟩) portalSlug)) ∧
    SameConditions (searchFor ⟨.all, .leaf upTo200000, [.leaf upTo300000]⟩)
        (searchFor ⟨.all, .leaf upTo300000, [.leaf upTo200000]⟩) ∧
      @signature .plain portalSlug (@pushableParams .plain portalCapabilities
          (searchFor ⟨.all, .leaf upTo200000, [.leaf upTo300000]⟩) portalSlug) ≠
        @signature .plain portalSlug (@pushableParams .plain portalCapabilities
          (searchFor ⟨.all, .leaf upTo300000, [.leaf upTo200000]⟩) portalSlug) := by
  refine ⟨⟨⟨rfl, rfl, _, .refl _, .cons (.leaf _ _ rfl rfl rfl) .nil⟩, by decide⟩,
    ⟨rfl, rfl, _, .swap _ _ _, .cons (.same _) (.cons (.same _) .nil)⟩, by decide⟩

theorem same_signature_iff_spellings :
    let a := searchFor ⟨.all, .leaf upTo200000, []⟩
    let b := searchFor ⟨.all, .leaf upTo200000Cents, []⟩
    @signature .plain portalSlug (@pushableParams .plain portalCapabilities a
          portalSlug) =
        @signature .plain portalSlug (@pushableParams .plain portalCapabilities b
          portalSlug) ↔
      (∀ key, @pushed .plain portalCapabilities portalSlug a key =
          @pushed .plain portalCapabilities portalSlug b key) ∨
        Swallows (@pushedEntries .plain portalCapabilities portalSlug a)
          (@pushedEntries .plain portalCapabilities portalSlug b) ∨
        Swallows (@pushedEntries .plain portalCapabilities portalSlug b)
          (@pushedEntries .plain portalCapabilities portalSlug a) :=
  @same_signature_iff .plain portalCapabilities Function.injective_id portalSlug _ _

theorem prices_share_a_page :
    ¬@NoSharedUrl .plain [searchFor ⟨.all, .leaf upTo200000, []⟩,
      searchFor ⟨.all, .leaf upTo300000, []⟩] := by
  intro hnone
  obtain ⟨hne, -⟩ := List.pairwise_cons.mp hnone
  exact hne _ (.head _) rfl rfl rfl

theorem no_shared_url_iff_prices :
    let dueAlerts := [searchFor ⟨.all, .leaf upTo200000, []⟩,
      searchFor ⟨.all, .leaf upTo300000, []⟩]
    @NoSharedUrl .plain dueAlerts ↔ ∀ a b, @Leads .plain dueAlerts a →
      @Leads .plain dueAlerts b → @SameSegments .plain a b →
        @pushedText .plain a = @pushedText .plain b :=
  @no_shared_url_iff .plain Function.injective_id _

end RealEstateTracker.Scraping
