import ResearchRecords.Proofs.Client.Addressing
import ResearchRecords.Proofs.Client.Settings
import ResearchRecords.Proofs.Url.Resolving

/-!
The base of a client and the addresses below it. The base is the address of the settings, with a
slash put at the end of its path if there is none; so resolving the name of a collection against it
keeps the whole path, while the query and the fragment of the base are lost. Bases that differ in no
more than that slash, a query or a fragment therefore lead to the same requests.
-/
namespace ResearchRecords

open Results
open Url (Settled pathText withSlash)

/-- Bases that differ at most in a slash at the end of the path, the query and the fragment. -/
structure Url.SameBase (url other : Url) : Prop where
  scheme : url.scheme = other.scheme
  authority : url.authority = other.authority
  path : withSlash (pathText url.path) = withSlash (pathText other.path)

theorem Url.getLast?_withSlash (text : String) :
    (withSlash text).toList.getLast? = some '/' := by
  unfold withSlash
  split
  · assumption
  · rw [String.toList_append]
    exact List.getLast?_concat ..

namespace Client

theorem isSegment_name (kind : Kind) : Url.IsSegment kind.name := by
  cases kind <;> decide

theorem isRelativePath_name (kind : Kind) : Url.isRelativePath kind.name.toList = true := by
  cases kind <;> decide

/-- The name of a collection, resolved in two steps against a base. -/
theorem join?_collection (base : Url) (kind : Kind) :
    (base.join? "data/").bind (·.join? kind.name) = some (base.sibling ["data", kind.name]) := by
  have hdata : Url.IsSegment "data" := by decide
  have hfirst : base.join? "data/" = some (base.sibling ["data", ""]) := by
    refine Url.join?_eq_sibling base (by simp) ?_ (by decide) (by decide)
    rw [List.forall_mem_cons]
    exact ⟨.inr hdata, by simp⟩
  have hsecond : (base.sibling ["data", ""]).join? kind.name =
      some ((base.sibling ["data", ""]).sibling [kind.name]) := by
    refine Url.join?_eq_sibling _ (by simp) ?_ (by simp) (isRelativePath_name kind)
    rw [List.forall_mem_cons]
    exact ⟨.inr (isSegment_name kind), by simp⟩
  rw [hfirst, Option.bind_some, hsecond]
  simp [Url.sibling]

/-- The text of the address of a collection lies below that of the base. -/
theorem text_collectionUrl {client : Client} (hclosed : client.IsClosed) (kind : Kind) :
    (client.collectionUrl kind).text = client.base.scheme ++ "://" ++ client.base.authority ++
      pathText client.base.path ++ "data/" ++ kind.name := by
  rw [Url.text, hclosed.pathText_collectionUrl]
  simp [collectionUrl, Url.sibling, Url.suffix, String.append_assoc]

theorem collectionUrl_eq_of_sameBase {url other : Url} (hsettled : Settled url.path)
    (hother : Settled other.path) (h : url.SameBase other)
    (authorization otherAuthorization : Option String) :
    (⟨url.closed, authorization⟩ : Client).collectionUrl =
      (⟨other.closed, otherAuthorization⟩ : Client).collectionUrl := by
  have htext : pathText (Url.closePath url.path) = pathText (Url.closePath other.path) := by
    rw [Url.pathText_closePath hsettled, Url.pathText_closePath hother, h.path]
  have hpath := hsettled.closePath.eq_of_pathText_eq hother.closePath htext
  funext kind
  simp only [collectionUrl, Url.sibling, Url.closed, h.scheme, h.authority, hpath]

/-- Clients that have the same collections send the same requests, up to the authorization. -/
theorem exists_call_of_collectionUrl_eq {client other : Client}
    (h : other.collectionUrl = client.collectionUrl) {operation : Operation} {request : Request}
    {next : Outcome → Except ClientFault operation.Result}
    (hsent : operation.call client = .send request next) :
    ∃ otherNext, operation.call other =
      .send (authorized other.authorization request) otherNext := by
  have hrequest := Operation.request_of_call hsent
  have hother := request_eq_authorized h operation
  rw [hrequest] at hother
  have hotherRequest : operation.request other =
      .ok (authorized other.authorization request) := hother
  rw [Operation.call_eq, hotherRequest]
  exact ⟨_, rfl⟩

/-- Settings are refused with the fault of their address. From accepted ones the base of a client is
made by putting a slash behind the path; each collection is found by resolving its name against the
base, directly below it and without query and fragment; and settings whose bases differ in that
slash, a query or a fragment alone make every operation send its request to the same address. -/
theorem collections_lie_below_base (config : Config) :
    (∀ fault, config.validate = .error fault → ofConfig config = .error fault) ∧
      (config.validate = .ok () → ∃ url client, Url.parse config.baseUrl = .ok url ∧
        ofConfig config = .ok client ∧ client.base = url.repaired ∧
        (pathText client.base.path).toList.getLast? = some '/' ∧
        (∀ kind, (client.base.join? "data/").bind (·.join? kind.name) =
            some (client.collectionUrl kind) ∧
          (client.collectionUrl kind).text = url.scheme ++ "://" ++ url.authority ++
            withSlash (pathText url.path) ++ "data/" ++ kind.name ∧
          (client.collectionUrl kind).query = none ∧
          (client.collectionUrl kind).fragment = none) ∧
        ∀ (other : Config) otherUrl otherClient, Url.parse other.baseUrl = .ok otherUrl →
          ofConfig other = .ok otherClient → url.SameBase otherUrl →
          ∀ (operation : Operation) request next, operation.call client = .send request next →
            ∃ otherRequest otherNext,
              operation.call otherClient = .send otherRequest otherNext ∧
                otherRequest.url = request.url) := by
  refine ⟨fun fault hfault => ?_, fun haccepted => ?_⟩
  · exact (ofConfig_eq_error_iff ..).mpr ((config.validate_eq_error_iff fault).mp hfault)
  · obtain ⟨url, hurl⟩ := config.validate_eq_ok_iff.mp haccepted
    have hparse := Config.parse_of_url hurl
    have hsettled := Url.settled_of_parse hparse
    have hclient : ofConfig config = .ok ⟨url.closed, authorizationOf config⟩ :=
      (ofConfig_eq_ok_iff ..).mpr ⟨url, hurl, rfl⟩
    have hclosed := isClosed_of_ofConfig hclient
    have hbase : pathText (Url.closed url).path = withSlash (pathText url.path) :=
      Url.pathText_closePath hsettled
    refine ⟨url, _, hparse, hclient, Url.closed_eq_repaired hsettled, ?_, fun kind => ?_, ?_⟩
    · rw [hbase]
      exact Url.getLast?_withSlash _
    · refine ⟨join?_collection _ kind, ?_, rfl, rfl⟩
      rw [text_collectionUrl hclosed, hbase]
      rfl
    · intro other otherUrl otherClient hotherParse hotherClient hsame operation request next hsent
      obtain ⟨parsed, hparsed, rfl⟩ := (ofConfig_eq_ok_iff ..).mp hotherClient
      obtain rfl := Except.ok.inj ((Config.parse_of_url hparsed).symm.trans hotherParse)
      have hcollections := collectionUrl_eq_of_sameBase hsettled (Url.settled_of_parse hotherParse)
        hsame (authorizationOf config) (authorizationOf other)
      obtain ⟨otherNext, hotherSent⟩ := exists_call_of_collectionUrl_eq hcollections.symm hsent
      exact ⟨_, otherNext, hotherSent, rfl⟩

/-- Settings whose address has dot segments, a query and a fragment, and no slash at its end. -/
def openConfig : Config := ⟨"HTTP://127.0.0.1:80/v1/../api;x=1?page[limit]=7#top", none, none, none⟩

def closedConfig : Config := ⟨"http://127.0.0.1/api;x=1/", some "u", some "p", none⟩

def foreignConfig : Config := ⟨"ftp://127.0.0.1/", none, none, none⟩

theorem collections_lie_below_base_openPath :
    foreignConfig.validate = .error (.address "ftp://127.0.0.1/" (.otherScheme "ftp")) ∧
      ofConfig foreignConfig = .error (.address "ftp://127.0.0.1/" (.otherScheme "ftp")) ∧
      openConfig.validate = .ok () ∧ ∃ client, ofConfig openConfig = .ok client ∧
        (client.collectionUrl .grant).text = "http://127.0.0.1/api;x=1/data/grant" ∧
        ∃ otherClient, ofConfig closedConfig = .ok otherClient ∧
          ∃ request next otherRequest otherNext,
            (Operation.delete .grant "1").call client = .send request next ∧
              (Operation.delete .grant "1").call otherClient = .send otherRequest otherNext ∧
                otherRequest.url = request.url := by
  have hforeign : foreignConfig.validate =
      .error (.address "ftp://127.0.0.1/" (.otherScheme "ftp")) := by decide +kernel
  have haccepted : openConfig.validate = .ok () := by decide +kernel
  have hparse : Url.parse openConfig.baseUrl =
      .ok ⟨"http", "127.0.0.1", ["api;x=1"], some "page[limit]=7", some "top"⟩ := by
    decide +kernel
  have hother : Url.parse closedConfig.baseUrl =
      .ok ⟨"http", "127.0.0.1", ["api;x=1", ""], none, none⟩ := by decide +kernel
  obtain ⟨otherClient, hotherClient⟩ : ∃ client, ofConfig closedConfig = .ok client := ⟨_, rfl⟩
  obtain ⟨url, client, hurl, hclient, _, _, hcollections, hsame⟩ :=
    (collections_lie_below_base openConfig).2 haccepted
  obtain rfl := Except.ok.inj (hparse.symm.trans hurl)
  obtain ⟨request, next, hsent⟩ : ∃ request next,
      (Operation.delete .grant "1").call client = .send request next := ⟨_, _, rfl⟩
  obtain ⟨otherRequest, otherNext, hotherSent, heq⟩ := hsame closedConfig _ otherClient hother
    hotherClient ⟨rfl, rfl, by decide⟩ _ _ _ hsent
  exact ⟨hforeign, (collections_lie_below_base foreignConfig).1 _ hforeign, haccepted, client,
    hclient, (hcollections .grant).2.1, otherClient, hotherClient, request, next, otherRequest,
    otherNext, hsent, hotherSent, heq⟩

end Client

end ResearchRecords
