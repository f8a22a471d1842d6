import PerchWebrtc.Session.Description

/-!
# One transport and one crypto list for a BUNDLE group

`mediasession.cc`: after an offer or an answer is made, the contents of a BUNDLE group are given
the ICE credentials of the group's first content, and its RTP contents the cryptos that they
have in common.

* `updateTransportInfoForBundle_shared`: the credentials are the same then;
* `commonCryptosLoop_false`: what is left of a list of cryptos after the contents have pruned it;
* `bundleShared_iff`: for which groups the cryptos are what they should be. The base of the
  common list is the content at the front of the group, even if it is not an RTP content or has
  no cryptos.
-/

namespace PerchWebrtc.Session

open SessionDescription

/-- `UpdateTransportInfoForBundle`; `none` where it returns false. -/
def updateTransportInfoForBundle (bundleGroup : ContentGroup) (sdesc : SessionDescription) :
    Option SessionDescription :=
  match bundleGroup.firstContentName with
  | none => none
  | some selectedContentName =>
    match sdesc.getTransportInfoByName selectedContentName with
    | none => none
    | some selected =>
      some { sdesc with
        transportInfos := sdesc.transportInfos.map fun it =>
          if bundleGroup.hasContentName it.contentName
              && it.contentName != selectedContentName then
            { it with
              description := { it.description with
                iceUfrag := selected.description.iceUfrag
                icePwd := selected.description.icePwd } }
          else it }

/-- `GetCryptosByName`. -/
def getCryptosByName (sdesc : SessionDescription) (contentName : String) :
    Option (List CryptoParams) :=
  match sdesc.getContentByName contentName with
  | none => none
  | some content =>
    if isMediaContent content then content.description.map (·.cryptos) else none

/-- `CryptoNotFound`. -/
def cryptoNotFound (crypto : CryptoParams) (filter : List CryptoParams) : Bool :=
  !filter.any (·.cipherSuite == crypto.cipherSuite)

/-- `PruneCryptos`. -/
def pruneCryptos (filter targetCryptos : List CryptoParams) : List CryptoParams :=
  targetCryptos.filter fun crypto => !cryptoNotFound crypto filter

/-- `IsRtpContent`. -/
def isRtpContent (sdesc : SessionDescription) (contentName : String) : Bool :=
  match sdesc.getContentByName contentName with
  | none => false
  | some content =>
    if isMediaContent content then
      match content.description with
      | none => false
      | some mediaDesc =>
        mediaDesc.protocol.isEmpty || startsWith mediaDesc.protocol kMediaProtocolRtpPrefix
    else false

/-- The first loop of `UpdateCryptoParamsForBundle`; `begin` at the first name of the group. An
`error` is what the function returns from inside the loop. -/
def commonCryptosLoop (sdesc : SessionDescription) :
    (begin : Bool) → List String → List CryptoParams → Except Bool (List CryptoParams)
  | _, [], commonCryptos => .ok commonCryptos
  | begin, name :: names, commonCryptos =>
    if isRtpContent sdesc name then
      match getCryptosByName sdesc name with
      | none => .error false
      | some cryptos =>
        if begin then
          if cryptos.isEmpty then .error true
          else commonCryptosLoop sdesc false names cryptos
        else commonCryptosLoop sdesc false names (pruneCryptos cryptos commonCryptos)
    else commonCryptosLoop sdesc false names commonCryptos

def MediaContentDescription.setCryptos (d : MediaContentDescription)
    (cryptos : List CryptoParams) : MediaContentDescription :=
  { d with cryptos := cryptos }

/-- `set_cryptos` through the pointer that `GetContentByName` gives. -/
def setCryptosByName (contentName : String) (cryptos : List CryptoParams) :
    List ContentInfo → List ContentInfo
  | [] => []
  | content :: contents =>
    if content.name == contentName then
      { content with description := content.description.map (·.setCryptos cryptos) } :: contents
    else content :: setCryptosByName contentName cryptos contents

/-- The second loop. -/
def setCommonCryptos (commonCryptos : List CryptoParams) (sdesc : SessionDescription)
    (name : String) : SessionDescription :=
  if isRtpContent sdesc name then
    { sdesc with contents := setCryptosByName name commonCryptos sdesc.contents }
  else sdesc

/-- `UpdateCryptoParamsForBundle`: what it returns, and the description after it. -/
def updateCryptoParamsForBundle (bundleGroup : ContentGroup) (sdesc : SessionDescription) :
    Bool × SessionDescription :=
  if bundleGroup.firstContentName.isNone then (false, sdesc)
  else
    match commonCryptosLoop sdesc true bundleGroup.contentNames [] with
    | .error ret => (ret, sdesc)
    | .ok commonCryptos =>
      if commonCryptos.isEmpty then (false, sdesc)
      else (true, bundleGroup.contentNames.foldl (setCommonCryptos commonCryptos) sdesc)

/-! ## Transports -/

/-- The ICE credentials of the content, if it has a transport. -/
def credentials (sdesc : SessionDescription) (name : String) : Option (String × String) :=
  (sdesc.getTransportInfoByName name).map fun info =>
    (info.description.iceUfrag, info.description.icePwd)

/-- Looking up a name after a map that keeps names. -/
theorem find_map_contentName (f : TransportInfo → TransportInfo)
    (hf : ∀ it, (f it).contentName = it.contentName) (name : String) (infos : List TransportInfo) :
    (infos.map f).find? (·.contentName == name) = (infos.find? (·.contentName == name)).map f := by
  induction infos with
  | nil => rfl
  | cons it infos ih =>
    simp only [List.map_cons, List.find?_cons, hf]
    split
    · rfl
    · exact ih

variable {sdesc : SessionDescription}

theorem updateTransportInfoForBundle_credentials {g : ContentGroup} {sdesc' : SessionDescription}
    (h : updateTransportInfoForBundle g sdesc = some sdesc') :
    ∃ selected, credentials sdesc selected = credentials sdesc' selected ∧
      ∀ name ∈ g.contentNames, (credentials sdesc' name).isSome →
        credentials sdesc' name = credentials sdesc selected := by
  simp only [updateTransportInfoForBundle] at h
  split at h
  · cases h
  rename_i selectedContentName hfirst
  split at h
  · cases h
  rename_i selected hsel
  cases h
  have lookup (name : String) := find_map_contentName
    (fun it => if g.hasContentName it.contentName && it.contentName != selectedContentName then
      { it with
        description := { it.description with
          iceUfrag := selected.description.iceUfrag
          icePwd := selected.description.icePwd } } else it)
    (by intro it; show (if _ then _ else _ : TransportInfo).contentName = _; split <;> rfl)
    name sdesc.transportInfos
  have hname : selected.contentName = selectedContentName := by
    simpa using List.find?_some hsel
  refine ⟨selectedContentName, ?_, fun name hmem hsome => ?_⟩
  · simp only [credentials, getTransportInfoByName] at hsel ⊢
    rw [lookup, hsel]
    simp [hname]
  · simp only [credentials, getTransportInfoByName] at hsel hsome ⊢
    rw [lookup] at hsome ⊢
    cases hfind : sdesc.transportInfos.find? (·.contentName == name) with
    | none => simp [hfind] at hsome
    | some it =>
      have hit : it.contentName = name := by simpa using List.find?_some hfind
      by_cases heq : name = selectedContentName
      · rw [heq, hsel] at hfind
        cases hfind
        simp [hsel, hit, heq]
      · simp [hsel, hit, heq, ContentGroup.hasContentName, hmem]

/-- After a success, contents of the group that have a transport have the same credentials. -/
theorem updateTransportInfoForBundle_shared {g : ContentGroup} {sdesc' : SessionDescription}
    (h : updateTransportInfoForBundle g sdesc = some sdesc') {n m : String}
    (hn : n ∈ g.contentNames) (hm : m ∈ g.contentNames) {c d : String × String}
    (hc : credentials sdesc' n = some c) (hd : credentials sdesc' m = some d) : c = d := by
  obtain ⟨selected, -, hall⟩ := updateTransportInfoForBundle_credentials h
  have hcs := hall n hn (by simp [hc])
  have hds := hall m hm (by simp [hd])
  rw [hc] at hcs
  rw [hd, ← hcs] at hds
  simpa using hds.symm

/-! ## Cryptos -/

/-- The cryptos of a content. -/
def cryptosOf (sdesc : SessionDescription) (name : String) : List CryptoParams :=
  (getCryptosByName sdesc name).getD []

/-- The RTP contents of the group, in the group's order. -/
def bundledRtp (g : ContentGroup) (sdesc : SessionDescription) : List String :=
  g.contentNames.filter (isRtpContent sdesc)

/-- Whether the cipher suite occurs in each of the contents. -/
def suiteInAll (sdesc : SessionDescription) (names : List String) (crypto : CryptoParams) : Bool :=
  names.all fun name => (cryptosOf sdesc name).any (·.cipherSuite == crypto.cipherSuite)

/-- The cryptos of the first RTP content whose cipher suites occur in every other one. -/
def commonOf (g : ContentGroup) (sdesc : SessionDescription) : List CryptoParams :=
  match bundledRtp g sdesc with
  | [] => []
  | first :: others => (cryptosOf sdesc first).filter (suiteInAll sdesc others)

theorem isRtpContent_eq (sdesc : SessionDescription) (name : String) :
    isRtpContent sdesc name = (sdesc.getContentByName name).any fun content =>
      isMediaContent content && content.description.any fun mediaDesc =>
        mediaDesc.protocol.isEmpty || startsWith mediaDesc.protocol kMediaProtocolRtpPrefix := by
  simp only [isRtpContent]
  cases sdesc.getContentByName name with
  | none => rfl
  | some content =>
    cases hdesc : content.description <;> cases hmedia : isMediaContent content <;>
      simp [hdesc, hmedia]

theorem getCryptosByName_of_rtp {name : String} (h : isRtpContent sdesc name = true) :
    getCryptosByName sdesc name = some (cryptosOf sdesc name) := by
  rw [isRtpContent_eq] at h
  simp only [cryptosOf, getCryptosByName]
  cases hget : sdesc.getContentByName name with
  | none => simp [hget] at h
  | some content =>
    simp only [hget, Option.any_some, Bool.and_eq_true] at h
    cases hdesc : content.description with
    | none => simp [hdesc] at h
    | some mediaDesc => simp [h.1, hdesc]

theorem pruneCryptos_eq (filter target : List CryptoParams) :
    pruneCryptos filter target =
      target.filter fun crypto => filter.any (·.cipherSuite == crypto.cipherSuite) := by
  simp [pruneCryptos, cryptoNotFound]

/-- After the front of the group each RTP content prunes the common list. -/
theorem commonCryptosLoop_false (sdesc : SessionDescription) (names : List String)
    (common : List CryptoParams) :
    commonCryptosLoop sdesc false names common =
      .ok (common.filter (suiteInAll sdesc (names.filter (isRtpContent sdesc)))) := by
  induction names generalizing common with
  | nil =>
    rw [commonCryptosLoop]
    exact congrArg _ (List.filter_eq_self.mpr fun _ _ => rfl).symm
  | cons name names ih =>
    rw [commonCryptosLoop]
    by_cases hrtp : isRtpContent sdesc name = true
    · have hpruned (crypto : CryptoParams) :
          suiteInAll sdesc (name :: names.filter (isRtpContent sdesc)) crypto =
            (suiteInAll sdesc (names.filter (isRtpContent sdesc)) crypto
              && (cryptosOf sdesc name).any (·.cipherSuite == crypto.cipherSuite)) :=
        Bool.and_comm ..
      simp only [getCryptosByName_of_rtp hrtp, hrtp, Bool.false_eq_true, if_true, if_false, ih,
        pruneCryptos_eq, List.filter_filter, List.filter_cons, funext hpruned]
    · simp only [hrtp, Bool.false_eq_true, if_false, ih, List.filter_cons]

theorem commonCryptosLoop_true (sdesc : SessionDescription) (name : String) (names : List String) :
    commonCryptosLoop sdesc true (name :: names) [] =
      if isRtpContent sdesc name then
        if (cryptosOf sdesc name).isEmpty then .error true
        else .ok ((cryptosOf sdesc name).filter
          (suiteInAll sdesc (names.filter (isRtpContent sdesc))))
      else .ok [] := by
  simp only [commonCryptosLoop]
  split
  · rename_i hrtp
    rw [getCryptosByName_of_rtp hrtp]
    simp only [if_true, commonCryptosLoop_false]
  · simp [commonCryptosLoop_false]

/-! ## The second loop -/

theorem find_setCryptosByName (name : String) (cryptos : List CryptoParams) (other : String)
    (contents : List ContentInfo) :
    (setCryptosByName name cryptos contents).find? (·.name == other) =
      (contents.find? (·.name == other)).map fun content =>
        if name = other then
          { content with description := content.description.map (·.setCryptos cryptos) }
        else content := by
  induction contents with
  | nil => rfl
  | cons content contents ih =>
    simp only [setCryptosByName]
    by_cases hname : content.name = name
    · by_cases hother : name = other
      · simp [hname, hother]
      · simp [hname, hother]
    · by_cases hother : content.name = other
      · have hne : name ≠ other := fun h => hname (hother.trans h.symm)
        simp [Ne.symm hne, hother, hne]
      · simpa [List.find?_cons, hname, hother] using ih

theorem getContentByName_setCommonCryptos (common : List CryptoParams) (sdesc : SessionDescription)
    (name other : String) :
    (setCommonCryptos common sdesc name).getContentByName other =
      (sdesc.getContentByName other).map fun content =>
        if name = other ∧ isRtpContent sdesc name = true then
          { content with description := content.description.map (·.setCryptos common) }
        else content := by
  simp only [setCommonCryptos]
  split
  · rename_i hrtp
    simp [getContentByName, find_setCryptosByName, hrtp]
  · rename_i hrtp
    simp [hrtp]

@[simp] theorem setCommonCryptos_isRtp (common : List CryptoParams) (sdesc : SessionDescription)
    (name other : String) :
    isRtpContent (setCommonCryptos common sdesc name) other = isRtpContent sdesc other := by
  rw [isRtpContent_eq _ other, getContentByName_setCommonCryptos, isRtpContent_eq sdesc other]
  cases sdesc.getContentByName other with
  | none => rfl
  | some content =>
    rw [Option.map_some]
    by_cases hset : name = other ∧ isRtpContent sdesc name = true
    · rw [if_pos hset]
      cases hdesc : content.description <;>
        simp [hdesc, isMediaContent, MediaContentDescription.setCryptos]
    · rw [if_neg hset]

theorem setCommonCryptos_cryptosOf (common : List CryptoParams) (sdesc : SessionDescription)
    {name other : String} (hother : isRtpContent sdesc other = true) :
    cryptosOf (setCommonCryptos common sdesc name) other =
      if name = other then common else cryptosOf sdesc other := by
  have hget := getCryptosByName_of_rtp hother
  simp only [cryptosOf, getCryptosByName, getContentByName_setCommonCryptos] at hget ⊢
  cases hc : sdesc.getContentByName other with
  | none => simp [hc] at hget
  | some content =>
    simp only [hc] at hget
    by_cases hname : name = other
    · subst hname
      cases hdesc : content.description with
      | none => simp [hdesc] at hget
      | some d =>
        by_cases hmedia : isMediaContent content = true
        · simp [hother, hdesc, isMediaContent, MediaContentDescription.setCryptos] at hmedia ⊢
          simp [hmedia]
        · simp [hmedia] at hget
    · simp [hname]

@[simp] theorem foldl_isRtp (common : List CryptoParams) (names : List String)
    (sdesc : SessionDescription) (other : String) :
    isRtpContent (names.foldl (setCommonCryptos common) sdesc) other = isRtpContent sdesc other := by
  induction names generalizing sdesc with
  | nil => rfl
  | cons name names ih => rw [List.foldl_cons, ih, setCommonCryptos_isRtp]

/-- After the second loop every RTP content that is named has the common list. -/
theorem foldl_cryptosOf (common : List CryptoParams) (names : List String)
    (sdesc : SessionDescription) {other : String} (hother : isRtpContent sdesc other = true) :
    cryptosOf (names.foldl (setCommonCryptos common) sdesc) other =
      if other ∈ names then common else cryptosOf sdesc other := by
  induction names generalizing sdesc with
  | nil => simp
  | cons name names ih =>
    rw [List.foldl_cons, ih _ (by rw [setCommonCryptos_isRtp]; exact hother),
      setCommonCryptos_cryptosOf common sdesc hother]
    by_cases hmem : other ∈ names
    · simp [hmem]
    · by_cases hname : name = other
      · simp [hname]
      · simp [hmem, hname, Ne.symm hname]

/-! ## What a bundle should share -/

/-- What the two functions are for. -/
structure BundleShared (g : ContentGroup) (sdesc : SessionDescription) : Prop where
  /-- Bundled contents have the same ICE credentials. -/
  transport : ∀ sdesc', updateTransportInfoForBundle g sdesc = some sdesc' →
    ∀ n ∈ g.contentNames, ∀ m ∈ g.contentNames, ∀ c d,
      credentials sdesc' n = some c → credentials sdesc' m = some d → c = d
  /-- Bundled RTP contents have the common cryptos. -/
  crypto : (updateCryptoParamsForBundle g sdesc).1 = true →
    ∀ n ∈ g.contentNames, isRtpContent (updateCryptoParamsForBundle g sdesc).2 n = true →
      cryptosOf (updateCryptoParamsForBundle g sdesc).2 n = commonOf g sdesc
  /-- It fails only if there is no common crypto and there is some crypto. -/
  failing : (updateCryptoParamsForBundle g sdesc).1 = false →
    commonOf g sdesc = [] ∧ ∃ n ∈ bundledRtp g sdesc, cryptosOf sdesc n ≠ []

/-- The group's first content is an RTP content, and if it has no cryptos no RTP content of the
group has; or the first is another one, and the RTP contents have cryptos but none in common. -/
def BaseIsFirst (g : ContentGroup) (sdesc : SessionDescription) : Prop :=
  match g.contentNames with
  | [] => False
  | first :: _ =>
    if isRtpContent sdesc first then
      cryptosOf sdesc first = [] → ∀ n ∈ bundledRtp g sdesc, cryptosOf sdesc n = []
    else commonOf g sdesc = [] ∧ ∃ n ∈ bundledRtp g sdesc, cryptosOf sdesc n ≠ []

theorem updateCryptoParamsForBundle_cons {g : ContentGroup} {first : String} {rest : List String}
    (hg : g.contentNames = first :: rest) (sdesc : SessionDescription) :
    updateCryptoParamsForBundle g sdesc =
      if isRtpContent sdesc first then
        if cryptosOf sdesc first = [] then (true, sdesc)
        else if commonOf g sdesc = [] then (false, sdesc)
        else (true, g.contentNames.foldl (setCommonCryptos (commonOf g sdesc)) sdesc)
      else (false, sdesc) := by
  simp only [updateCryptoParamsForBundle, ContentGroup.firstContentName, hg, List.head?_cons,
    Option.isNone_some, Bool.false_eq_true, if_false, commonCryptosLoop_true]
  by_cases hrtp : isRtpContent sdesc first = true
  · have hcommon : commonOf g sdesc = (cryptosOf sdesc first).filter
        (suiteInAll sdesc (rest.filter (isRtpContent sdesc))) := by
      simp [commonOf, bundledRtp, hg, hrtp]
    rw [hcommon]
    by_cases hempty : cryptosOf sdesc first = []
    · simp [hrtp, hempty]
    · simp only [hrtp, if_true, List.isEmpty_iff, hempty, if_false]
  · simp [hrtp]

/-- **Bundled contents share their transport and their cryptos** exactly if the content at the
front of the group is the right base. -/
theorem bundleShared_iff (g : ContentGroup) (sdesc : SessionDescription) :
    BundleShared g sdesc ↔ BaseIsFirst g sdesc := by
  have htransport : ∀ sdesc', updateTransportInfoForBundle g sdesc = some sdesc' →
      ∀ n ∈ g.contentNames, ∀ m ∈ g.contentNames, ∀ c d,
        credentials sdesc' n = some c → credentials sdesc' m = some d → c = d :=
    fun sdesc' h n hn m hm c d hc hd => updateTransportInfoForBundle_shared h hn hm hc hd
  cases hg : g.contentNames with
  | nil =>
    simp only [BaseIsFirst, hg, iff_false]
    intro h
    obtain ⟨-, n, hn, -⟩ := h.failing (by
      simp [updateCryptoParamsForBundle, ContentGroup.firstContentName, hg])
    simp [bundledRtp, hg] at hn
  | cons first rest =>
    have hupdate := updateCryptoParamsForBundle_cons hg sdesc
    have hfirst (hrtp : isRtpContent sdesc first = true) : first ∈ bundledRtp g sdesc := by
      simp [bundledRtp, hg, hrtp]
    simp only [BaseIsFirst, hg]
    by_cases hrtp : isRtpContent sdesc first = true
    · by_cases hempty : cryptosOf sdesc first = []
      · -- the function returns at once
        simp only [hrtp, if_true, hempty, forall_const] at hupdate ⊢
        have hcommon : commonOf g sdesc = [] := by
          simp [commonOf, bundledRtp, hg, hrtp, hempty]
        constructor
        · intro h n hn
          obtain ⟨hmem, hnrtp⟩ := List.mem_filter.mp hn
          have := h.crypto (by rw [hupdate]) n hmem (by rw [hupdate]; exact hnrtp)
          rw [hupdate, hcommon] at this
          exact this
        · intro h
          refine ⟨htransport, fun _ n hn hnrtp => ?_, fun hfail => ?_⟩
          · rw [hupdate] at hnrtp ⊢
            rw [hcommon]
            exact h n (List.mem_filter.mpr ⟨hn, hnrtp⟩)
          · simp [hupdate] at hfail
      · simp only [hrtp, if_true, hempty, if_false, false_implies, iff_true] at hupdate ⊢
        by_cases hcommon : commonOf g sdesc = []
        · rw [if_pos hcommon] at hupdate
          exact ⟨htransport, fun hok => by simp [hupdate] at hok,
            fun _ => ⟨hcommon, first, hfirst hrtp, hempty⟩⟩
        · rw [if_neg hcommon] at hupdate
          refine ⟨htransport, fun _ n hn hnrtp => ?_, fun hfail => by simp [hupdate] at hfail⟩
          rw [hupdate] at hnrtp ⊢
          simp only [foldl_isRtp] at hnrtp
          rw [foldl_cryptosOf _ _ _ hnrtp, if_pos hn]
    · simp only [hrtp, Bool.false_eq_true, if_false] at hupdate ⊢
      constructor
      · exact fun h => h.failing (by rw [hupdate])
      · exact fun h => ⟨htransport, fun hok => by simp [hupdate] at hok, fun _ => h⟩

/-- A group of a data content over SCTP and an audio content with a crypto: the update fails,
though the audio content alone decides the common list. -/
theorem not_bundleShared :
    ¬ ∀ g sdesc, BundleShared g sdesc := by
  intro h
  have := (h
    (((ContentGroup.new GROUP_TYPE_BUNDLE).addContentName "data").addContentName "audio")
    { contents :=
        [⟨"data", NS_JINGLE_DRAFT_SCTP, false,
            some { codecs := .data [], protocol := kMediaProtocolDtlsSctp }⟩,
          ⟨"audio", NS_JINGLE_RTP, false,
            some { codecs := .audio [], cryptos := [⟨1, "AES_CM_128_HMAC_SHA1_80", "k", ""⟩] }⟩] }
    ).failing (by decide)
  exact absurd this.1 (by decide)

end PerchWebrtc.Session
