import EmbyAuto.Domain.Text

/-!
# Transcode profiles

`domain/transcode.go`: what a transcode profile may combine. The quality is stored with three
decimals, so it is a number of thousandths and the checks for finite values and for decimals
hold by construction.

## Main definitions

* `validateTranscodeProfile`: the first field of a profile that is wrong, and why
-/

namespace EmbyAuto

structure TranscodeProfile where
  name : String
  videoCodec : String
  encoder : String
  container : String
  fileExtension : String
  qualityMode : String
  qualityThousandths : Int
  audioPolicy : String
  audioCodec : String := ""
  preset : String
  pixelFormat : String
  threadCount : Int := 0
  maxConcurrency : Int := 1

def defaultTranscodeProfile : TranscodeProfile where
  name := "default-h264"
  videoCodec := "h264"
  encoder := "libx264"
  container := "mp4"
  fileExtension := "mp4"
  qualityMode := "crf"
  qualityThousandths := 20000
  audioPolicy := "transcode"
  audioCodec := "aac"
  preset := "medium"
  pixelFormat := "yuv420p"

structure TranscodeProfileError where
  field : String
  reason : String
  deriving DecidableEq

def TranscodeProfileError.text (err : TranscodeProfileError) : String :=
  "invalid transcode profile field " ++ err.field ++ ": " ++ err.reason

def codecEncoders : List (String × List String) := [
  ("h264", ["libx264", "h264_nvenc"]),
  ("hevc", ["libx265", "hevc_nvenc"]),
  ("av1", ["libsvtav1", "libaom-av1", "av1_nvenc"])]

def containerExtensions : List (String × String) := [
  ("matroska", "mkv"), ("mp4", "mp4"), ("webm", "webm")]

def containerVideoCodecs : List (String × List String) := [
  ("matroska", ["h264", "hevc", "av1"]),
  ("mp4", ["h264", "hevc", "av1"]),
  ("webm", ["av1"])]

def containerAudioCodecs : List (String × List String) := [
  ("matroska", ["aac", "ac3", "eac3", "flac", "opus", "vorbis"]),
  ("mp4", ["aac", "ac3", "eac3"]),
  ("webm", ["opus", "vorbis"])]

def pixelFormats : List String := [
  "yuv420p", "yuv420p10le", "yuv422p", "yuv422p10le", "yuv444p", "yuv444p10le", "nv12", "p010le"]

def isNVENC (encoder : String) : Bool := "_nvenc".toList <:+ encoder.toList

def validateQuality (profile : TranscodeProfile) : Except TranscodeProfileError Unit :=
  let outside (low high : Int) :=
    profile.qualityThousandths < low * 1000 ∨ profile.qualityThousandths > high * 1000
  if profile.qualityMode = "crf" then
    if isNVENC profile.encoder then
      .error ⟨"qualityMode", "CRF is not supported by the selected encoder"⟩
    else if outside 0 63 then .error ⟨"qualityValue", "CRF must be between 0 and 63"⟩
    else .ok ()
  else if profile.qualityMode = "cq" then
    if !isNVENC profile.encoder then
      .error ⟨"qualityMode", "CQ is only supported by configured NVENC encoders"⟩
    else if outside 0 63 then .error ⟨"qualityValue", "CQ must be between 0 and 63"⟩
    else .ok ()
  else if profile.qualityMode = "bitrate" then
    if profile.qualityThousandths ≤ 0 ∨ profile.qualityThousandths > 1000000 * 1000 then
      .error ⟨"qualityValue", "bitrate must be between 1 and 1000000 kbps"⟩
    else .ok ()
  else .error ⟨"qualityMode", "must be crf, cq, or bitrate"⟩

def validateAudio (profile : TranscodeProfile) : Except TranscodeProfileError Unit :=
  if profile.audioPolicy = "copy" then
    if profile.audioCodec ≠ "" then
      .error ⟨"audioCodec", "must be empty when audio policy is copy"⟩
    else .ok ()
  else if profile.audioPolicy = "transcode" then
    if profile.audioCodec ∈ (containerAudioCodecs.lookup profile.container).getD [] then .ok ()
    else .error ⟨"audioCodec", "is not compatible with the selected container"⟩
  else .error ⟨"audioPolicy", "must be copy or transcode"⟩

def validPreset (encoder preset : String) : Bool :=
  let numbered (limit : Int) := (atoi? preset).any fun value => 0 ≤ value && value ≤ limit
  if encoder ∈ ["libx264", "libx265"] then
    preset ∈ ["ultrafast", "superfast", "veryfast", "faster", "fast", "medium", "slow", "slower",
      "veryslow", "placebo"]
  else if encoder = "libsvtav1" then numbered 13
  else if encoder = "libaom-av1" then numbered 8
  else if encoder ∈ ["h264_nvenc", "hevc_nvenc", "av1_nvenc"] then
    preset ∈ ["p1", "p2", "p3", "p4", "p5", "p6", "p7", "slow", "medium", "fast"]
  else false

/-- The codec, its encoder and the container fit together. -/
def validateContainer (profile : TranscodeProfile) : Except TranscodeProfileError Unit :=
  match codecEncoders.lookup profile.videoCodec with
  | none => .error ⟨"videoCodec", "must be h264, hevc, or av1"⟩
  | some encoders =>
    if profile.encoder ∉ encoders then
      .error ⟨"encoder", "is not compatible with the selected video codec"⟩
    else match containerExtensions.lookup profile.container,
        containerVideoCodecs.lookup profile.container with
      | none, _ => .error ⟨"container", "must be matroska, mp4, or webm"⟩
      | some _, none => .error ⟨"container", "has no supported video codecs"⟩
      | some extension, some allowed =>
        if profile.videoCodec ∉ allowed then
          .error ⟨"container", "is not compatible with the selected video codec"⟩
        else if profile.fileExtension ≠ extension then
          .error ⟨"fileExtension", "does not match the selected container"⟩
        else .ok ()

def validateTranscodeProfile (profile : TranscodeProfile) : Except TranscodeProfileError Unit := do
  if trimSpace profile.name = "" then .error ⟨"name", "must not be blank"⟩ else .ok ()
  validateContainer profile
  validateQuality profile
  validateAudio profile
  if !validPreset profile.encoder profile.preset then
    .error ⟨"preset", "is not allowed for the selected encoder"⟩
  else if profile.pixelFormat ∉ pixelFormats then
    .error ⟨"pixelFormat", "is not in the supported pixel format allowlist"⟩
  else if profile.threadCount < 0 ∨ profile.threadCount > 256 then
    .error ⟨"threadCount", "must be between 0 and 256"⟩
  else if profile.maxConcurrency < 1 ∨ profile.maxConcurrency > 64 then
    .error ⟨"maxConcurrency", "must be between 1 and 64"⟩
  else .ok ()

end EmbyAuto
