import SketchApk.Config.Persisted
import SketchApk.Text.Substitution

/-!
# Texts of generated files

A project is created with a first sketch and the name of the application as a resource. Before a
build the manifest of the application is generated, and the activity that shows the main sketch.
Each text results from a template in which placeholders, names between percent signs, are replaced
one after the other. All lines end with a newline.

## Main definitions

* `Template.manifest` : the manifest that a configuration describes.
* `Template.activity` : the activity of a package that shows a sketch.
* `Template.firstSketch`, `Template.appName` : the files of a new project.
-/

namespace SketchApk.Template

/-- The text of some lines. -/
def ofLines (lines : List String) : String :=
  String.join (lines.map (· ++ "\n"))

/-- A text with placeholders replaced, in the order in which they are listed. What replaces a
placeholder is searched for those that are listed after it. -/
def fill (template : String) (values : List (String × String)) : String :=
  values.foldl (fun text value => Text.substituted value.1 value.2 text) template

/-- The template of the manifest. -/
def manifestTemplate : String :=
  ofLines [
    "<?xml version=\"1.0\" encoding=\"utf-8\"?>",
    "<manifest xmlns:android=\"http://schemas.android.com/apk/res/android\"",
    "    package=\"%package%\"",
    "    android:versionCode=\"%version_code%\"",
    "    android:versionName=\"%version_name%\">",
    "",
    "    <uses-sdk",
    "        android:minSdkVersion=\"%min_sdk%\"",
    "        android:targetSdkVersion=\"%target_sdk%\"",
    "        android:maxSdkVersion=\"%max_sdk%\" />",
    "",
    "%permissions%",
    "    <application",
    "        android:label=\"%app_name%\"",
    "        android:hardwareAccelerated=\"true\">",
    "        <activity",
    "            android:name=\".MainActivity\"",
    "            android:exported=\"true\"",
    "            android:configChanges=\"orientation|screenSize|keyboardHidden\">",
    "            <intent-filter>",
    "                <action android:name=\"android.intent.action.MAIN\" />",
    "                <category android:name=\"android.intent.category.LAUNCHER\" />",
    "            </intent-filter>",
    "        </activity>",
    "    </application>",
    "</manifest>"]

/-- The line of the manifest that asks for a permission. -/
def permissionLine (permission : String) : String :=
  "    <uses-permission android:name=\"" ++ permission ++ "\"/>\n"

/-- The placeholders of the manifest with the values that a configuration gives them. No application
may be installed above the version of the platform that it targets. -/
def manifestValues (config : BuildConfig) : List (String × String) :=
  [("%permissions%", String.join (config.permissions.map permissionLine)),
    ("%app_name%", config.appName),
    ("%package%", config.appPackage),
    ("%version_code%", BuildConfig.numberValue config.versionCode),
    ("%version_name%", config.versionName),
    ("%min_sdk%", BuildConfig.numberValue config.minSdk),
    ("%target_sdk%", BuildConfig.numberValue config.targetSdk),
    ("%max_sdk%", BuildConfig.numberValue config.targetSdk)]

/-- The manifest that a configuration describes. -/
def manifest (config : BuildConfig) : String :=
  fill manifestTemplate (manifestValues config)

/-- The template of the activity. -/
def activityTemplate : String :=
  ofLines [
    "package %package%;",
    "",
    "import android.os.Bundle;",
    "import android.widget.FrameLayout;",
    "import androidx.appcompat.app.AppCompatActivity;",
    "import processing.android.PFragment;",
    "import processing.core.PApplet;",
    "",
    "public class MainActivity extends AppCompatActivity \x7b",
    "",
    "    private PApplet sketch;",
    "",
    "    @Override",
    "    protected void onCreate(Bundle savedInstanceState) \x7b",
    "        super.onCreate(savedInstanceState);",
    "        FrameLayout frame = new FrameLayout(this);",
    "        frame.setId(android.R.id.content);",
    "        setContentView(frame);",
    "        sketch = new %sketch%();",
    "        PFragment fragment = new PFragment(sketch);",
    "        getSupportFragmentManager().beginTransaction().add(frame.getId(), fragment).commit();",
    "    \x7d",
    "",
    "    @Override",
    "    protected void onResume() \x7b",
    "        super.onResume();",
    "        if (sketch != null) \x7b",
    "            sketch.onResume();",
    "        \x7d",
    "    \x7d",
    "",
    "    @Override",
    "    protected void onPause() \x7b",
    "        if (sketch != null) \x7b",
    "            sketch.onPause();",
    "        \x7d",
    "        super.onPause();",
    "    \x7d",
    "",
    "    @Override",
    "    protected void onDestroy() \x7b",
    "        if (sketch != null) \x7b",
    "            sketch.onDestroy();",
    "        \x7d",
    "        super.onDestroy();",
    "    \x7d",
    "",
    "    @Override",
    "    public void onBackPressed() \x7b",
    "        if (sketch != null && !sketch.onBackPressed()) \x7b",
    "            super.onBackPressed();",
    "        \x7d",
    "    \x7d",
    "\x7d"]

/-- The activity of a package that shows the sketch of a class. -/
def activity (appPackage className : String) : String :=
  fill activityTemplate [("%package%", appPackage), ("%sketch%", className)]

/-- The sketch that a project is created with. -/
def firstSketch : String :=
  ofLines [
    "void setup() \x7b",
    "  fullScreen();",
    "  noStroke();",
    "\x7d",
    "",
    "void draw() \x7b",
    "  background(20);",
    "  fill(255);",
    "  ellipse(mouseX, mouseY, 80, 80);",
    "\x7d"]

/-- The template of the resource with the name of the application. -/
def appNameTemplate : String :=
  ofLines [
    "<?xml version=\"1.0\" encoding=\"utf-8\"?>",
    "<resources>",
    "    <string name=\"app_name\">%app_name%</string>",
    "</resources>"]

/-- The spelling of a character in the text of a string resource. -/
def resourceCharacter (c : Char) : List Char :=
  match c with
  | '&' => "&amp;".toList
  | '<' => "&lt;".toList
  | '>' => "&gt;".toList
  | '"' => ['\\', '"']
  | '\'' => ['\\', '\'']
  | _ => [c]

/-- The spelling of a text in a string resource. -/
def resourceText (text : String) : String :=
  String.ofList (text.toList.flatMap resourceCharacter)

/-- The resource with the name of the application. -/
def appName (name : String) : String :=
  fill appNameTemplate [("%app_name%", resourceText name)]

end SketchApk.Template
