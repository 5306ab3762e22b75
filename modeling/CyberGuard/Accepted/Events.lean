import CyberGuard.Accepted.Texts
import CyberGuard.Agent.EventJson

/-!
# The server accepts the events the agent sends

The dispatch makes events of which all but three things fit `CgesEventSchema`, whatever
the record: nothing keeps the instant of an event, the start of its process and the name
of its process in what the schema takes. The name is the last segment of the translated
path. An event is accepted exactly where these three are.
-/

namespace CyberGuard.Accepted
set_option autoImplicit false
open CyberGuard.Agent CyberGuard.Wire CyberGuard.Ingest.EventSchema JsonSchema List

def InRangeOrNone (nanos : Option Nat) : Prop := ∀ n, nanos = some n → InRange n

structure FitProcess (event : CapturedEvent) : Prop where
  eventId : TextPatterns.test uuidPattern event.eventId = true
  pid : event.pid < 2 ^ 32
  parentPid : event.parentPid < 2 ^ 32
  exitStatus : ∀ n, event.exitStatus = some n → -2 ^ 31 ≤ n ∧ n < 2 ^ 31

structure FitNetwork (event : NetworkEvent) : Prop where
  eventId : TextPatterns.test uuidPattern event.eventId = true
  pid : event.pid < 2 ^ 32
  srcIp : ipTextSchema (some (.string event.src.ip)) = true
  srcPort : event.src.port < 2 ^ 16
  dstIp : ipTextSchema (some (.string event.dst.ip)) = true
  dstPort : event.dst.port < 2 ^ 16

structure FitLogon (event : LogonEvent) : Prop where
  eventId : TextPatterns.test uuidPattern event.eventId = true
  userUid : event.userUid ≠ ""
  userName : event.userName ≠ ""
  userDomain : event.userDomain ≠ ""
  logonTypeId : event.logonTypeId ≤ 99
  authProtocol : event.authProtocol ≠ ""
  authProtocolId : event.authProtocolId ∈ [0, 1, 2, 99]
  srcIp : ∀ src, event.src = some src → ipTextSchema (some (.string src.ip)) = true
  hostname : ∀ src name, event.src = some src → src.hostname = some name → name ≠ ""
  statusCode : ∀ code, event.statusCode = some code → code < 2 ^ 32
  statusDetail : ∀ code, event.statusDetail = some code → code < 2 ^ 32

def Fit : RingEvent → Prop
  | .process event => FitProcess event
  | .network event => FitNetwork event
  | .logon event => FitLogon event

theorem formatProcessUid_ne (agentId : String) (pid nanos : Nat) :
    formatProcessUid agentId pid nanos ≠ "" := by
  intro hempty
  have hlists := congrArg String.toList hempty
  simp [formatProcessUid] at hlists

variable {n pid nanos : Nat} {event : LogonEvent} {eventId : Uuid} {bytes : List UInt8}
  {parse : String → Option IpAddr} {c : Capture}

theorem integer_accepted {most : Int} (h : (n : Int) ≤ most) :
    integer 0 most (some (natural n)) = true := by
  have hbounds : (0 : Int) ≤ n ∧ (n : Int) ≤ most := ⟨Int.natCast_nonneg n, h⟩
  simp [integer, natural, hbounds]

theorem pid_accepted (h : pid < 2 ^ 32) : pidSchema (some (natural pid)) = true := by
  apply integer_accepted
  omega

theorem nonEmpty_accepted {t : String} (h : t ≠ "") :
    nonEmptyText (N := Int) (some (.string t)) = true := by
  simpa [nonEmptyText] using h

theorem createdTime_accepted {nanos : Option Nat} (h : InRangeOrNone nanos) :
    nullable nanosSchema (some (Json.orNull (nanos.map toString) .string)) = true := by
  cases nanos with
  | none => rfl
  | some n => exact nanos_accepted (h n rfl)

theorem parentPid_accepted (h : pid < 2 ^ 32) :
    nullable pidSchema (some (Json.orNull (if pid = 0 then none else some pid) natural)) = true := by
  split
  · rfl
  · exact pid_accepted h

theorem processObject_accepted {process : CgesProcess}
    (hpid : pidSchema (some (natural process.pid)) = true) (huid : process.uid ≠ "")
    (hname : process.name ≠ "")
    (hcreated : nullable nanosSchema (some (Json.orNull process.createdTime .string)) = true)
    (hexit : ∀ n, process.exitCode = some n → -2 ^ 31 ≤ n ∧ n < 2 ^ 31)
    (hparent : nullable pidSchema (some (Json.orNull process.parentPid natural)) = true) :
    cgesProcessSchema (some process.toJson) = true := by
  have huid' := nonEmpty_accepted huid
  have hname' := nonEmpty_accepted hname
  rw [CgesProcess.toJson]
  cases hcode : process.exitCode with
  | none =>
    apply object_accepts
    simp only [forall_mem_cons]
    exact ⟨hpid, huid', hname', hcreated, rfl, hparent, rfl, rfl, rfl, by simp⟩
  | some n =>
    have hn := hexit n hcode
    have hexit' : integer (-2147483648) 2147483647 (some (.number n)) = true := by
      rw [integer, number_number, decide_eq_true_eq]
      omega
    apply object_accepts
    simp only [forall_mem_cons]
    exact ⟨hpid, huid', hname', hcreated, hexit', hparent, rfl, rfl, rfl, by simp⟩

theorem process_accepted {event : CapturedEvent} (h : FitProcess event)
    (htime : InRange event.etwTimestampNanos) (hcreated : InRangeOrNone event.createdTimeNanos)
    (agentId : String) (paths : DevicePathMap)
    (hname : deriveProcessName (paths.translate event.imageFileName) ≠ "") :
    cgesProcessActivitySchema
      (some (renderProcessActivity event agentId paths.translate).toJson) = true := by
  generalize hrendered : renderProcessActivity event agentId paths.translate = rendered
  have hid : uuidSchema (some (.string rendered.eventId)) = true := by
    rw [← hrendered]
    exact h.eventId
  have htime : nanosSchema (some (.string rendered.time)) = true := by
    rw [← hrendered]
    exact nanos_accepted htime
  have hactivity : union [literalNumber 1, literalNumber 2]
      (some (natural rendered.activityId)) = true := by
    rw [← hrendered, renderProcessActivity, build]
    cases event.activityId <;> rfl
  have hprocess : cgesProcessSchema (some rendered.process.toJson) = true := by
    rw [← hrendered]
    apply processObject_accepted
    · exact pid_accepted h.pid
    · exact formatProcessUid_ne _ _ _
    · exact hname
    · exact createdTime_accepted hcreated
    · exact h.exitStatus
    · exact parentPid_accepted h.parentPid
  have hclass : literalNumber 1007 (some (natural 1007)) = true := rfl
  apply object_accepts
  simp only [forall_mem_cons]
  exact ⟨hid, hclass, hactivity, hprocess, htime, by simp⟩

theorem endpoint_accepted {endpoint : SocketAddr}
    (hip : ipTextSchema (some (.string endpoint.ip)) = true) (hport : endpoint.port < 2 ^ 16) :
    networkEndpointSchema (some (CgesNetworkEndpoint.mk endpoint.ip endpoint.port).toJson) =
      true := by
  have hport' : integer 0 65535 (some (natural endpoint.port)) = true := by
    apply integer_accepted
    omega
  apply object_accepts
  simp only [forall_mem_cons]
  exact ⟨hip, hport', by simp⟩

theorem actor_accepted {uid : Option String} (hpid : pid < 2 ^ 32)
    (huid : ∀ text, uid = some text → text ≠ "") :
    object [("process", object [("pid", pidSchema), ("uid", optional nonEmptyText)])]
      (some (.object [("process", .object
        ([("pid", natural pid)] ++ Json.optionalMember "uid" uid .string))])) = true := by
  have hpid' := pid_accepted hpid
  cases huid' : uid with
  | none => simp [Json.optionalMember, lookup_cons, lookup_nil, hpid']
  | some text =>
    have htext := nonEmpty_accepted (huid text huid')
    simp [Json.optionalMember, lookup_cons, lookup_nil, hpid', htext]

theorem network_accepted {event : NetworkEvent} (h : FitNetwork event)
    (htime : InRange event.etwTimestampNanos) (agentId : String) :
    cgesNetworkActivitySchema (some (renderNetworkActivity event agentId).toJson) = true := by
  have hid : uuidSchema (some (.string event.eventId)) = true := h.eventId
  have htime := nanos_accepted htime
  have hsrc := endpoint_accepted h.srcIp h.srcPort
  have hdst := endpoint_accepted h.dstIp h.dstPort
  have huid : ∀ text, event.createdTimeNanos.map (formatProcessUid agentId event.pid) =
      some text → text ≠ "" := by
    intro text htext
    obtain ⟨nanos, _, rfl⟩ := Option.map_eq_some_iff.mp htext
    exact formatProcessUid_ne agentId event.pid nanos
  have hactor := actor_accepted h.pid huid
  have hclass : literalNumber 4001 (some (natural 4001)) = true := rfl
  have hone : literalNumber 1 (some (natural 1)) = true := rfl
  have hconnection : object (N := Int) [("protocol_name", literalText "tcp"),
      ("direction", union [literalText "outbound", literalText "inbound"])]
      (some (.object [("protocol_name", .string "tcp"),
        ("direction", .string event.direction.text)])) = true := by
    cases event.direction <;> rfl
  apply object_accepts
  simp only [forall_mem_cons]
  exact ⟨hid, hclass, hone, htime, hsrc, hdst, hconnection, hactor, by simp⟩

theorem lookup_members (event : CgesAuthentication) :
    event.members.lookup "src_endpoint" = event.srcEndpoint.map CgesLogonSource.toJson ∧
    event.members.lookup "status_code" = event.statusCode.map .string ∧
    event.members.lookup "status_detail" = event.statusDetail.map .string ∧
    event.members.lookup "cg_elevated_token" = event.cgElevatedToken.map .boolean := by
  unfold CgesAuthentication.members
  cases event.srcEndpoint <;> cases event.statusCode <;> cases event.statusDetail <;>
    cases event.cgElevatedToken <;> exact ⟨rfl, rfl, rfl, rfl⟩

theorem source_accepted {src : Option LogonSource}
    (hip : ∀ s, src = some s → ipTextSchema (some (.string s.ip)) = true)
    (hhost : ∀ s name, src = some s → s.hostname = some name → name ≠ "") :
    optional (object [("ip", ipTextSchema), ("hostname", optional nonEmptyText)])
      ((src.map fun s => CgesLogonSource.mk s.ip s.hostname).map CgesLogonSource.toJson) = true := by
  cases hsrc : src with
  | none => rfl
  | some s =>
    have hip' := hip s hsrc
    apply object_accepts
    simp only [forall_mem_cons]
    cases hname : s.hostname with
    | none => exact ⟨hip', rfl, by simp⟩
    | some name => exact ⟨hip', nonEmpty_accepted (hhost s name hsrc hname), by simp⟩

theorem base_accepted (h : FitLogon event) (htime : InRange event.timestampNanos) :
    ∀ field ∈ cgesAuthenticationBase,
      field.2 ((renderAuthentication event).members.lookup field.1) = true := by
  have hid : uuidSchema (some (.string event.eventId)) = true := h.eventId
  have htime := nanos_accepted htime
  have huser : object (N := Int) [("uid", nonEmptyText), ("name", nonEmptyText),
      ("domain", nonEmptyText)] (some (.object [("uid", .string event.userUid),
        ("name", .string event.userName), ("domain", .string event.userDomain)])) = true := by
    apply object_accepts
    simp only [forall_mem_cons]
    exact ⟨nonEmpty_accepted h.userUid, nonEmpty_accepted h.userName,
      nonEmpty_accepted h.userDomain, by simp⟩
  have htype : integer 0 99 (some (natural event.logonTypeId)) = true := by
    apply integer_accepted
    have := h.logonTypeId
    omega
  have hprotocol : union [literalNumber 0, literalNumber 1, literalNumber 2, literalNumber 99]
      (some (natural event.authProtocolId)) = true := by
    have hmem := h.authProtocolId
    simp only [mem_cons, not_mem_nil, or_false] at hmem
    rcases hmem with heq | heq | heq | heq <;> rw [heq] <;> rfl
  have hsrc : optional (object [("ip", ipTextSchema), ("hostname", optional nonEmptyText)])
      ((renderAuthentication event).members.lookup "src_endpoint") = true := by
    rw [(lookup_members _).1]
    exact source_accepted h.srcIp h.hostname
  simp only [cgesAuthenticationBase, forall_mem_cons]
  exact ⟨hid, rfl, rfl, rfl, htime, huser, htype, nonEmpty_accepted h.authProtocol, hprotocol,
    hsrc, by simp⟩

theorem logon_success_accepted (h : FitLogon event) (htime : InRange event.timestampNanos)
    (hstatus : event.status = .success) :
    cgesLogonSuccessSchema (some (renderAuthentication event).toJson) = true := by
  obtain ⟨-, hcode, hdetail, htoken⟩ := lookup_members (renderAuthentication event)
  have hid : (renderAuthentication event).members.lookup "status_id" = some (natural 1) := by
    simp [CgesAuthentication.members, renderAuthentication, lookup_cons, hstatus]
  have hnocode : (renderAuthentication event).statusCode = none := by
    simp [renderAuthentication, hstatus]
  have hnodetail : (renderAuthentication event).statusDetail = none := by
    simp [renderAuthentication, hstatus]
  apply object_accepts
  rw [forall_mem_append]
  refine ⟨base_accepted h htime, ?_⟩
  simp only [forall_mem_cons, hid, hcode, hdetail, htoken, hnocode, hnodetail]
  refine ⟨rfl, rfl, rfl, ?_, by simp⟩
  cases (renderAuthentication event).cgElevatedToken <;> rfl

theorem logon_failure_accepted (h : FitLogon event) (htime : InRange event.timestampNanos)
    (hstatus : event.status = .failure) :
    cgesLogonFailureSchema (some (renderAuthentication event).toJson) = true := by
  obtain ⟨-, hcode, hdetail, htoken⟩ := lookup_members (renderAuthentication event)
  have hid : (renderAuthentication event).members.lookup "status_id" = some (natural 2) := by
    simp [CgesAuthentication.members, renderAuthentication, lookup_cons, hstatus]
  have hcode' : (renderAuthentication event).statusCode =
      some (hexCode (event.statusCode.getD 0)) := by
    simp [renderAuthentication, hstatus]
  have hdetail' : (renderAuthentication event).statusDetail =
      some (hexCode (event.statusDetail.getD 0)) := by
    simp [renderAuthentication, hstatus]
  have hnotoken : (renderAuthentication event).cgElevatedToken = none := by
    simp [renderAuthentication, hstatus]
  have hlt {code : Option Nat} (hcode : ∀ n, code = some n → n < 2 ^ 32) : code.getD 0 < 2 ^ 32 := by
    cases code with
    | none => decide
    | some n => exact hcode n rfl
  apply object_accepts
  rw [forall_mem_append]
  refine ⟨base_accepted h htime, ?_⟩
  simp only [forall_mem_cons, hid, hcode, hdetail, htoken, hcode', hdetail', hnotoken]
  exact ⟨rfl, statusCode_accepted (hlt h.statusCode), statusCode_accepted (hlt h.statusDetail), rfl,
    by simp⟩

def EndsInName (path : String) : Prop :=
  ∃ c, path.toList.getLast? = some c ∧ c ≠ '\\' ∧ c ≠ '/'

theorem deriveProcessName_ne_iff {path : String} : deriveProcessName path ≠ "" ↔ EndsInName path := by
  have hempty (text : List Char) : String.ofList text ≠ "" ↔ text ≠ [] := by
    rw [Ne, ← String.toList_inj, String.toList_ofList]
    exact Iff.rfl
  simp only [deriveProcessName, hempty, EndsInName, List.getLast?_eq_head?_reverse]
  cases path.toList.reverse with
  | nil => simp
  | cons c rest => by_cases h : c ≠ '\\' ∧ c ≠ '/' <;> simp_all

/-- The instant of the event is one the schema takes, and for a process its start, where it is
known, and its name. -/
def Sendable (paths : DevicePathMap) : RingEvent → Prop
  | .process event => InRange event.etwTimestampNanos ∧ InRangeOrNone event.createdTimeNanos ∧
      EndsInName (paths.translate event.imageFileName)
  | .network event => InRange event.etwTimestampNanos
  | .logon event => InRange event.timestampNanos

theorem fit_accepted {event : RingEvent} (h : Fit event) (agentId : String)
    {paths : DevicePathMap} (hsend : Sendable paths event) :
    cgesEventSchema (some (render agentId paths.translate event).toJson) = true := by
  cases event with
  | process event =>
    obtain ⟨htime, hcreated, hname⟩ := hsend
    exact union_of_mem mem_cons_self
      (process_accepted h htime hcreated agentId paths (deriveProcessName_ne_iff.mpr hname))
  | network event =>
    exact union_of_mem (mem_cons_of_mem _ mem_cons_self) (network_accepted h hsend agentId)
  | logon event =>
    cases hstatus : event.status with
    | success => exact union_of_mem (by simp) (logon_success_accepted h hsend hstatus)
    | failure => exact union_of_mem (by simp) (logon_failure_accepted h hsend hstatus)

theorem nanos_refused (h : ¬ InRange nanos) :
    nanosSchema (some (.string (toString nanos))) = false := by
  have hvalue : bigInt (toString nanos) = nanos := by
    rw [bigInt, Nat.toString_eq_ofList_toDigits, String.toList_ofList,
      Nat.ofDigitChars_ten_toDigits]
  rw [nanosSchema, text_string, hvalue]
  by_cases hzero : nanos = 0
  · subst hzero
    decide
  · have hbig : ¬ nanos < 2 ^ 63 := fun hlt => h ⟨Nat.pos_of_ne_zero hzero, hlt⟩
    rw [decide_eq_false hbig, Bool.and_false]

/-- All four alternatives have the field. -/
theorem time_refused {members : List (String × Json Int)} (h : ¬ InRange nanos)
    (htime : members.lookup "time" = some (.string (toString nanos))) :
    cgesEventSchema (some (.object members)) = false := by
  have hfield : nanosSchema (members.lookup "time") = false := by
    rw [htime]
    exact nanos_refused h
  have hrefused {fields : List (String × Schema Int)} (hmem : ("time", nanosSchema) ∈ fields) :
      object fields (some (.object members)) = false := object_refuses hmem hfield
  simp [cgesEventSchema, union, cgesProcessActivitySchema, cgesNetworkActivitySchema,
    cgesLogonSuccessSchema, cgesLogonFailureSchema, cgesAuthenticationBase, hrefused,
    -object_object]

theorem otherClass_refused {event : CgesProcessActivity} {fields : List (String × Schema Int)}
    (uid : Int) (huid : uid ≠ 1007) (hmem : ("class_uid", literalNumber uid) ∈ fields) :
    object fields (some event.toJson) = false := by
  apply object_refuses hmem
  exact decide_eq_false huid.symm

theorem process_refused {event : CgesProcessActivity}
    (h : cgesProcessSchema (some event.process.toJson) = false) :
    cgesEventSchema (some event.toJson) = false := by
  have hprocess : cgesProcessActivitySchema (some event.toJson) = false :=
    object_refuses (by simp : ("process", cgesProcessSchema) ∈ _) h
  have hnetwork : cgesNetworkActivitySchema (some event.toJson) = false :=
    otherClass_refused 4001 (by decide) (by simp)
  have hsuccess : cgesLogonSuccessSchema (some event.toJson) = false :=
    otherClass_refused 3002 (by decide) (by simp [cgesAuthenticationBase])
  have hfailure : cgesLogonFailureSchema (some event.toJson) = false :=
    otherClass_refused 3002 (by decide) (by simp [cgesAuthenticationBase])
  simp [cgesEventSchema, union, hprocess, hnetwork, hsuccess, hfailure]

theorem unsendable_refused {event : RingEvent} (agentId : String) {paths : DevicePathMap}
    (h : ¬ Sendable paths event) :
    cgesEventSchema (some (render agentId paths.translate event).toJson) = false := by
  cases event with
  | network | logon => exact time_refused h rfl
  | process event =>
    by_cases htime : InRange event.etwTimestampNanos
    · apply process_refused
      by_cases hname : EndsInName (paths.translate event.imageFileName)
      · have hcreated : ∃ n, event.createdTimeNanos = some n ∧ ¬ InRange n := by
          by_contra! hall
          exact h ⟨htime, hall, hname⟩
        obtain ⟨n, hn, hrange⟩ := hcreated
        refine object_refuses (by simp : ("created_time", nullable nanosSchema) ∈ _) ?_
        simp only [renderProcessActivity, build, hn]
        exact nanos_refused hrange
      · have hempty := not_not.mp (mt deriveProcessName_ne_iff.mp hname)
        refine object_refuses (by simp : ("name", nonEmptyText) ∈ _) ?_
        simp only [renderProcessActivity, build, hempty]
        rfl
    · exact time_refused htime rfl

theorem fit_capturedEvent (raw : RawProcessRecord) (created : Option Nat) :
    FitProcess (capturedEvent raw eventId nanos created) where
  eventId := uuid_accepted eventId
  pid := raw.pid.toNat_lt
  parentPid := raw.parentPid.toNat_lt
  exitStatus := by
    intro n hn
    obtain ⟨status, _, rfl⟩ := Option.map_eq_some_iff.mp hn
    exact ⟨status.le_toInt, status.toInt_lt⟩

theorem port_lt (h : port bytes = some n) : n < 2 ^ 16 := by
  unfold port at h
  split at h
  · rename_i high low
    have hhigh : high.toNat < 256 := high.toNat_lt
    have hlow : low.toNat < 256 := low.toNat_lt
    have heq := Option.some.inj h
    omega
  · simp at h

theorem decodePid_lt (h : decodePid bytes = some n) :
    n < 2 ^ 32 := by
  unfold decodePid at h
  split at h
  · rename_i a b c d
    have ha : a.toNat < 256 := a.toNat_lt
    have hb : b.toNat < 256 := b.toNat_lt
    have hc : c.toNat < 256 := c.toNat_lt
    have hd : d.toNat < 256 := d.toNat_lt
    have heq := Option.some.inj h
    omega
  · simp at h

theorem address_accepted {ip : IpAddr} (h : address bytes = some ip) :
    ipTextSchema (some (.string ip.text)) = true := by
  unfold address at h
  split at h
  · rename_i a b c d
    rw [← Option.some.inj h]
    exact ip_accepted (.v4 ⟨a, b, c, d⟩)
  · split at h
    · rename_i hlen
      rw [← Option.some.inj h]
      exact ip_accepted (.v6 ⟨bytes, hlen⟩)
    · simp at h

theorem fit_networkEvent {raw : RawNetworkRecord} {connection : DecodedConnection}
    (created : Option Nat) (hdecoded : decodeConnection raw = some connection) :
    FitNetwork (networkEvent connection eventId nanos created) := by
  simp only [decodeConnection, Option.bind_eq_bind, Option.bind_eq_some_iff] at hdecoded
  obtain ⟨direction, _, pid, hpid, saddr, hsaddr, sport, hsport, daddr, hdaddr, dport, hdport,
    hends⟩ := hdecoded
  cases direction with
  | outbound =>
    obtain rfl := Option.some.inj hends
    exact ⟨uuid_accepted eventId, decodePid_lt hpid, address_accepted hsaddr, port_lt hsport,
      address_accepted hdaddr, port_lt hdport⟩
  | inbound =>
    obtain rfl := Option.some.inj hends
    exact ⟨uuid_accepted eventId, decodePid_lt hpid, address_accepted hdaddr, port_lt hdport,
      address_accepted hsaddr, port_lt hsport⟩

theorem valueOrDash_ne (value : Option String) : valueOrDash value ≠ "" := by
  cases value with
  | none => decide
  | some v =>
    simp only [valueOrDash]
    split
    · decide
    · rename_i hne
      intro hv
      rw [hv] at hne
      exact hne rfl

theorem logonTypeId_le (logonType : Option UInt32) : logonTypeId logonType ≤ 99 := by
  cases logonType with
  | none => exact Nat.le_refl 99
  | some t =>
    simp only [logonTypeId]
    split
    · decide
    · split
      · rename_i hrange
        have htoNat : t.toNat ≤ 13 := by
          rcases hrange with ⟨-, hle⟩ | ⟨-, hle⟩
          · have := UInt32.le_iff_toNat_le.mp hle
            simp at this
            omega
          · exact UInt32.le_iff_toNat_le.mp hle
        omega
      · exact Nat.le_refl 99

theorem authProtocolId_mem (package : String) : authProtocolId package ∈ [0, 1, 2, 99] := by
  unfold authProtocolId
  repeat' split
  all_goals simp

theorem source_ip {ipAddress workstation : Option String} {src : LogonSource}
    (h : source parse ipAddress workstation = some src) :
    ipTextSchema (some (.string src.ip)) = true := by
  simp only [source, Option.bind_eq_bind, Option.bind_eq_some_iff] at h
  obtain ⟨text, _, ip, _, hsrc⟩ := h
  rw [← Option.some.inj hsrc]
  exact ip_accepted ip

theorem source_hostname {ipAddress workstation : Option String} {src : LogonSource} {name : String}
    (h : source parse ipAddress workstation = some src) (hname : src.hostname = some name) :
    name ≠ "" := by
  simp only [source, Option.bind_eq_bind, Option.bind_eq_some_iff] at h
  obtain ⟨text, _, ip, _, hsrc⟩ := h
  rw [← Option.some.inj hsrc] at hname
  have hkept := (Option.filter_eq_some_iff.mp hname).2
  rintro rfl
  simp at hkept

theorem fit_logonEvent (parse : String → Option IpAddr) (eventId : Uuid) (raw : RawLogonRecord)
    (status : LogonStatus) {sid : String} (hsid : sid ≠ "") :
    FitLogon (logonEvent parse eventId raw status sid nanos) := by
  have hname (value : Option String) :
      (if keepsName raw status then valueOrDash value else withheld) ≠ "" := by
    split
    · exact valueOrDash_ne value
    · decide
  have hcode (value : Option UInt32) (code : Nat)
      (hc : (if status = .success then none else some (value.getD 0).toNat) = some code) :
      code < 2 ^ 32 := by
    split at hc
    · simp at hc
    · rw [← Option.some.inj hc]
      exact (value.getD 0).toNat_lt
  exact ⟨uuid_accepted eventId, hsid, hname _, hname _, logonTypeId_le _, valueOrDash_ne _,
    authProtocolId_mem _, fun src hsrc => source_ip hsrc,
    fun src name hsrc hhost => source_hostname hsrc hhost, hcode raw.status,
    hcode raw.subStatus⟩

theorem fit_decodeLogon {raw : RawLogonRecord}
    (h : decodeLogon parse eventId raw = .report event) : FitLogon event := by
  unfold decodeLogon at h
  split at h
  · rename_i status sid _ hsid
    split at h
    · simp at h
    · cases hnanos : filetimeToUnixNanos raw.filetime100ns with
      | none => simp [hnanos] at h
      | some nanos =>
        simp only [hnanos, LogonDecode.report.injEq] at h
        rw [← h]
        apply fit_logonEvent
        have hkept := (Option.filter_eq_some_iff.mp hsid).2
        rintro rfl
        simp at hkept
  · simp at h

/-- The states the capture comes to: records of the three kinds are dispatched, processes that
ended leave the cache, and the delivery takes batches. -/
inductive Captured (parse : String → Option IpAddr) : Capture → Prop where
  | start (capacity : Nat) : Captured parse ⟨fun _ => none, EventRing.new capacity, 0, 0⟩
  | process {c : Capture} (raw : RawProcessRecord) (eventId : Uuid) (now : Nat) :
      Captured parse c → Captured parse (dispatchRecord raw eventId now c)
  | network {c : Capture} (raw : RawNetworkRecord) (excludedPid : Option Nat) (eventId : Uuid)
      (now : Nat) : Captured parse c →
      Captured parse (dispatchNetworkRecord raw excludedPid eventId now c)
  | logon {c : Capture} (raw : RawLogonRecord) (eventId : Uuid) (now : Nat) : Captured parse c →
      Captured parse (dispatchLogonRecord parse raw eventId now c)
  | sweep {c : Capture} (gone : Nat → Bool) : Captured parse c →
      Captured parse { c with cache := fun p => if gone p then none else c.cache p }
  | drain {c : Capture} (max : Nat) : Captured parse c →
      Captured parse { c with ring := (c.ring.drainUpTo max).2 }
  | addDropped {c : Capture} (n : Nat) : Captured parse c →
      Captured parse { c with ring := c.ring.addDropped n }

def Sound (c : Capture) : Prop := ∀ event ∈ c.ring.contents, Fit event

theorem mem_enqueueOrDrop {ring : EventRing} {now : Nat} {event other : RingEvent}
    (h : other ∈ (ring.enqueueOrDrop now event).contents) :
    other ∈ ring.contents ∨ other = event := by
  simp only [EventRing.enqueueOrDrop, EventRing.contents] at h ⊢
  split at h
  · exact .inl h
  · split at h
    · simp only [map_append, mem_append, map_cons, map_nil,
        mem_singleton] at h
      rcases h with hold | hnew
      · obtain ⟨entry, hentry, rfl⟩ := mem_map.mp hold
        exact .inl (mem_map_of_mem (mem_of_mem_drop hentry))
      · exact .inr hnew
    · simpa only [map_append, mem_append, map_cons, map_nil,
        mem_singleton] using h

theorem Sound.enqueueOrDrop (h : Sound c) {event : RingEvent} (hfit : Fit event) (now : Nat) :
    Sound (c.enqueueOrDrop now event) := by
  intro other hother
  rcases mem_enqueueOrDrop hother with hold | rfl
  · exact h other hold
  · exact hfit

theorem Sound.dispatchRecord (h : Sound c) (raw : RawProcessRecord) (eventId : Uuid) (now : Nat) :
    Sound (Agent.dispatchRecord raw eventId now c) := by
  unfold Agent.dispatchRecord
  cases hnanos : filetimeToUnixNanos raw.filetime100ns with
  | none => exact h
  | some nanos =>
    cases raw.activityId with
    | launch =>
      have hcached : Sound (c.insertCache raw.pid.toNat nanos) := h
      apply hcached.enqueueOrDrop
      exact fit_capturedEvent raw _
    | terminate =>
      have hpurged : Sound (c.purgeCache raw.pid.toNat) := h
      apply hpurged.enqueueOrDrop
      exact fit_capturedEvent raw _

theorem Sound.dispatchNetworkRecord (h : Sound c) (raw : RawNetworkRecord)
    (excludedPid : Option Nat) (eventId : Uuid) (now : Nat) :
    Sound (Agent.dispatchNetworkRecord raw excludedPid eventId now c) := by
  unfold Agent.dispatchNetworkRecord
  split
  · exact h
  · split
    · exact h
    · cases hdecoded : decodeConnection raw with
      | none => exact h
      | some connection =>
        cases hnanos : filetimeToUnixNanos raw.filetime100ns with
        | none => exact h
        | some nanos =>
          apply h.enqueueOrDrop
          exact fit_networkEvent _ hdecoded

theorem Sound.dispatchLogonRecord (h : Sound c) (raw : RawLogonRecord) (eventId : Uuid)
    (now : Nat) : Sound (Agent.dispatchLogonRecord parse raw eventId now c) := by
  unfold Agent.dispatchLogonRecord
  cases hdecode : decodeLogon parse eventId raw with
  | report event =>
    have hfit : Fit (.logon event) := fit_decodeLogon hdecode
    exact h.enqueueOrDrop hfit now
  | excluded | beforeEpoch | unusable => exact h

theorem Captured.sound (h : Captured parse c) : Sound c := by
  induction h with
  | start capacity =>
    intro event hevent
    simp [EventRing.new, EventRing.contents] at hevent
  | process raw eventId now _ ih => exact ih.dispatchRecord raw eventId now
  | network raw excludedPid eventId now _ ih =>
    exact ih.dispatchNetworkRecord raw excludedPid eventId now
  | logon raw eventId now _ ih => exact ih.dispatchLogonRecord raw eventId now
  | sweep gone _ ih => exact ih
  | drain max _ ih =>
    intro event hevent
    rw [EventRing.contents_drainUpTo] at hevent
    exact ih event (mem_of_mem_drop hevent)
  | addDropped n _ ih => exact ih

/-- In every run of the capture, on any records, each event it holds for sending is accepted by
the schema exactly where its own instants and the image of its process are such as it takes. -/
theorem captured_events_accepted {parse : String → Option IpAddr} {c : Capture}
    (h : Captured parse c) {event : RingEvent} (hevent : event ∈ c.ring.contents)
    (agentId : String) (paths : DevicePathMap) :
    cgesEventSchema (some (render agentId paths.translate event).toJson) = true ↔
      Sendable paths event := by
  constructor
  · intro haccepted
    by_contra hnot
    rw [unsendable_refused agentId hnot] at haccepted
    cases haccepted
  · exact fit_accepted (h.sound event hevent) agentId

def sampleUuid : Uuid := ⟨List.replicate 16 0, rfl⟩

def sampleRecord (imageFileName : String) (filetime100ns : Int) : RawProcessRecord where
  activityId := .launch
  pid := 7
  parentPid := 1
  imageFileName := imageFileName
  commandLine := ""
  subjectUserSid := "S-1-5-18"
  filetime100ns := filetime100ns
  exitStatus := none

def emptyCapture : Capture := ⟨fun _ => none, EventRing.new 1, 0, 0⟩

def RefusedLaunch (raw : RawProcessRecord) : Prop :=
  ∃ event ∈ (dispatchRecord raw sampleUuid 0 emptyCapture).ring.contents,
    cgesEventSchema (some (render sampleUuid.text (DevicePathMap.mk []).translate event).toJson) =
      false

/-- A launch at 1970-01-01 itself, one past 2262-04-11, and one of an image path that ends in a
separator are enqueued, and the schema refuses their events. -/
theorem sample_records_refused :
    RefusedLaunch (sampleRecord "cmd.exe" filetimeToUnix100ns) ∧
    RefusedLaunch (sampleRecord "cmd.exe" (filetimeToUnix100ns + 92233720368547759)) ∧
    RefusedLaunch (sampleRecord "C:\\tools\\" (filetimeToUnix100ns + 1)) := by
  refine ⟨⟨_, mem_singleton_self _, unsendable_refused _ ?_⟩,
    ⟨_, mem_singleton_self _, unsendable_refused _ ?_⟩,
    ⟨_, mem_singleton_self _, unsendable_refused _ ?_⟩⟩
  · rintro ⟨⟨hzero, -⟩, -⟩
    exact absurd hzero (by decide)
  · rintro ⟨⟨-, hlarge⟩, -⟩
    exact absurd hlarge (by decide)
  · rintro ⟨-, -, hname⟩
    exact deriveProcessName_ne_iff.mpr hname (by decide)

/-- The launch of a named image at an ordinary instant, after one at 1970-01-01 itself, is enqueued
and accepted. -/
theorem sample_record_accepted :
    ∃ event ∈ (dispatchRecord (sampleRecord "C:\\Windows\\cmd.exe" (filetimeToUnix100ns + 1))
        sampleUuid 0 (dispatchRecord (sampleRecord "cmd.exe" filetimeToUnix100ns) sampleUuid 0
          emptyCapture)).ring.contents,
      cgesEventSchema (some (render sampleUuid.text (DevicePathMap.mk []).translate event).toJson) =
        true := by
  have hcaptured : Captured (fun _ => none) _ :=
    .process (sampleRecord "C:\\Windows\\cmd.exe" (filetimeToUnix100ns + 1)) sampleUuid 0
      (.process (sampleRecord "cmd.exe" filetimeToUnix100ns) sampleUuid 0 (.start 1))
  refine ⟨_, mem_singleton_self _, (captured_events_accepted hcaptured
    (mem_singleton_self _) sampleUuid.text (DevicePathMap.mk [])).mpr ?_⟩
  have hinstant : InRange 100 := ⟨by decide, by decide⟩
  refine ⟨hinstant, ?_, deriveProcessName_ne_iff.mp (by decide)⟩
  rintro n ⟨⟩
  exact hinstant

end CyberGuard.Accepted
